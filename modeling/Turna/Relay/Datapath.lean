import Turna.Auth.Subjects
import Turna.Relay.PeerFilter
import Turna.Session.TableSteps
import Turna.Stun.Encoding
import Turna.Transport.Tickets

/-! # Entry points: packets from clients and from peers -/

namespace Turna.Relay
open Lib Net Stun Crypto Auth Session Transport

def cacheCapacity : Nat := 128

def cacheTtl : Nat := 40000000000

abbrev TransactionKey := SocketAddr × TransactionId

structure CacheEntry where
  request : Bytes
  response : Bytes
  validUntil : Nat

inductive Lookup where
  | miss
  | conflict
  | reply (response : Bytes)
  deriving DecidableEq

structure Cache where
  entries : HashMap TransactionKey CacheEntry
  order : List TransactionKey

namespace Cache

def empty : Cache := ⟨.empty, []⟩

def key (src : SocketAddr) (raw : Bytes) : TransactionKey := (src, raw.arrayAt 8 12)

def expireFrom (now : Nat) (entries : HashMap TransactionKey CacheEntry) : List TransactionKey → Cache
  | [] => ⟨entries, []⟩
  | key :: order =>
    if (entries.get key).any (fun e => now < e.validUntil) then ⟨entries, key :: order⟩
    else expireFrom now (entries.remove key) order

def expire (cache : Cache) (now : Nat) : Cache := expireFrom now cache.entries cache.order

def lookup (cache : Cache) (src : SocketAddr) (raw : Bytes) : Lookup :=
  match cache.entries.get (key src raw) with
  | none => .miss
  | some e => if e.request = raw then .reply e.response else .conflict

def evict (cache : Cache) : Cache :=
  match cache.order with
  | [] => cache
  | old :: order => ⟨cache.entries.remove old, order⟩

def insert (cache : Cache) (src : SocketAddr) (request response : Bytes) (now : Nat) : Cache :=
  if 4096 < request.length ∨ 1024 < response.length then cache
  else if cache.entries.contains (key src request) then cache
  else
    let cache := if cache.entries.len = cacheCapacity then cache.evict else cache
    ⟨cache.entries.insert (key src request) ⟨request, response, now + cacheTtl⟩, cache.order ++ [key src request]⟩

end Cache

def shardCount : Nat := 64

structure UdpTransactions where
  shardOf : SocketAddr → Fin shardCount
  shards : Fin shardCount → Cache

namespace UdpTransactions

def new (shardOf : SocketAddr → Fin shardCount) : UdpTransactions := ⟨shardOf, fun _ => .empty⟩

def shard (t : UdpTransactions) (src : SocketAddr) : Cache := t.shards (t.shardOf src)

def setShard (t : UdpTransactions) (src : SocketAddr) (cache : Cache) : UdpTransactions :=
  { t with shards := Function.update t.shards (t.shardOf src) cache }

end UdpTransactions

/-! ## The packet processor: state, surroundings and responses -/

inductive Action where
  | send (data : Bytes) (target : SocketAddr)
  | forward (data : Bytes) (target : SocketAddr) (relayPort : UInt16)
  | forwardZeroCopy (offset len : Nat) (target : SocketAddr) (relayPort : UInt16)
  | sendViaRelay (data : Bytes) (target : SocketAddr) (relayPort : UInt16)
  | registerRelay (port : UInt16) (clientAddr : SocketAddr) (allocationId : String)
  | registerTcpListener (relayPort : UInt16) (clientAddr : SocketAddr) (ownerKey : Bytes)
  | closeRelay (port : UInt16)
  | awaitCredentials
  | none
  deriving DecidableEq

/-- What is fixed when the processor is built. `tcpRelay` is the RFC 6062 engine, by its IPv6 switch. -/
structure Settings where
  externalIp : IpAddr
  externalIp6 : Option Ipv6Addr
  mtu : UInt16
  migration : Option MigrationManager
  tcpRelay : Option Bool
  requireBindingAuth : Bool
  software : Option String
  policy : PeerPolicy

structure Processor where
  settings : Settings
  store : AllocationStore
  activeAllocations : Int
  udpTransactions : UdpTransactions

structure Surroundings where
  clock : Clock
  /-- The clock when an answer is put into the replay cache. -/
  answeredAt : Nat
  order : IterOrder
  auth : AuthRegistry
  authEnv : AuthEnv
  nonceValid : SocketAddr → String → Bool
  freshNonce : String
  banned : Bool
  ingressIpOk : Bool
  ingressOk : Bool
  allocateOk : Bool
  createPermissionOk : Bool
  channelBindOk : Bool
  bindingReplyOk : Bool
  unauthReplyOk : Bool
  bandwidthOk : Bool
  capacityOk : Bool
  zerocopyForward : Bool
  draining : Bool
  /-- The other node that the ring names for a client without an allocation here. -/
  redirect : Option SocketAddr
  bindOk : Nat → Bool
  token : Nat → Token

def Surroundings.unixSecs (env : Surroundings) : UInt64 := UInt64.ofNat (env.clock.epochMs / 1000)

/-! ## Responses -/

def encodeOrDrop (encoded : Except StunError Bytes) (target : SocketAddr) : List Action :=
  match encoded with
  | .ok data => [.send data target]
  | .error _ => [.none]

def encodeError (msg : StunMessage) (dst : SocketAddr) (code : UInt16) (reason : String) : List Action :=
  encodeOrDrop ((buildErrorResponse msg.method msg.transactionId code reason).encode 512) dst

def redirectTo (alternateAddr : SocketAddr) (msg : StunMessage) (src : SocketAddr) : List Action :=
  encodeOrDrop ((buildRedirectResponse msg.method msg.transactionId alternateAddr).encode 512) src

section Responses

variable (env : Surroundings) (msg : StunMessage) (dst : SocketAddr)

def encodeAuthChallenge : List Action :=
  if !env.unauthReplyOk then [.none]
  else
    let resp := match env.auth.base.oauthIdentity with
      | some identity =>
        buildOauthChallenge msg.method msg.transactionId env.auth.baseRealm env.freshNonce (Utf8.encode identity)
      | none => buildAuthChallenge msg.method msg.transactionId env.auth.baseRealm env.freshNonce
    encodeOrDrop (resp.encode 512) dst

def encodeStaleNonce : List Action :=
  let resp := ((buildErrorResponse msg.method msg.transactionId 438 "Stale Nonce").add
    (.realm env.auth.baseRealm)).add (.nonce env.freshNonce)
  encodeOrDrop (resp.encode 512) dst

def validateNonce : Option (List Action) :=
  match msg.getNonce with
  | some nonce => if env.nonceValid dst nonce then none else some (encodeStaleNonce env msg dst)
  | none => some (encodeAuthChallenge env msg dst)

/-- Outcomes of the credential webhook that are no authentication failures. -/
def authDeferred : AuthError → Option (List Action)
  | .pending _ => some [.awaitCredentials]
  | .throttled => some (encodeError msg dst 500 "Server Error")
  | .unavailable => some (encodeError msg dst 500 "Server Error")
  | _ => none

def authRefused (e : AuthError) : List Action :=
  match authDeferred msg dst e with
  | some actions => actions
  | none => if e = .badRequest then encodeError msg dst 400 "Bad Request" else encodeAuthChallenge env msg dst

/-- How Allocate, Refresh, CreatePermission, ChannelBind and CONNECT begin. -/
def authenticate (raw : Bytes) : Except (List Action) AuthResolution :=
  if !msg.hasUserIdentity then .error (encodeAuthChallenge env msg dst)
  else
    match validateNonce env msg dst with
    | some actions => .error actions
    | none =>
      match env.auth.validateOpts env.authEnv msg raw with
      | .ok resolution => .ok resolution
      | .error e => .error (authRefused env msg dst e)

/-- 420 for attributes below 0x8000 that are not understood; CHANGE-REQUEST is refused too. -/
def rejectUnknownComprehensionRequired : Option (List Action) :=
  let unknown := msg.attributes.filterMap fun
    | .unknown attrType _ =>
      if attrType < 0x8000 ∧ attrType ≠ attrMessageIntegritySha256 ∧ attrType ≠ attrPasswordAlgorithm
      then some attrType else none
    | .changeRequest _ _ => some attrChangeRequest
    | _ => none
  if unknown = [] then none
  else
    let resp := (buildErrorResponse msg.method msg.transactionId 420 "Unknown Attribute").add
      (.unknownAttributes unknown)
    some (encodeOrDrop (resp.encode 512) dst)

end Responses

namespace Processor

variable (p : Processor) (env : Surroundings)

def peerFamilyMismatch (src : SocketAddr) (peer : IpAddr) : Bool :=
  match p.store.get src with
  | some a => a.relayAddr.isIpv6 != peer.isIpv6
  | none => false

def maybeRedirectNewClient (msg : StunMessage) (src : SocketAddr) : Option (List Action) :=
  match p.store.get src with
  | some _ => none
  | none => env.redirect.map (fun target => redirectTo target msg src)

/-! ## Binding -/

/-- The key of a Binding that carries integrity; one that does not needs none. -/
def bindingKey (msg : StunMessage) (raw : Bytes) (src : SocketAddr) : Except (List Action) (Option Bytes) :=
  let hasIntegrity := msg.getMessageIntegrity.isSome || msg.getMessageIntegritySha256.isSome
  if p.settings.requireBindingAuth && (!hasIntegrity || msg.getUsername.isNone) then
    .error (encodeAuthChallenge env msg src)
  else
    match if p.settings.requireBindingAuth then validateNonce env msg src else none with
    | some actions => .error actions
    | none =>
      if hasIntegrity then
        match env.auth.validateOpts env.authEnv msg raw with
        | .ok resolution => .ok (some resolution.key)
        | .error e => .error ((authDeferred msg src e).getD (encodeAuthChallenge env msg src))
      else .ok none

def handleBinding (msg : StunMessage) (raw : Bytes) (src : SocketAddr) : List Action :=
  if !env.bindingReplyOk then [.none]
  else
    match p.bindingKey env msg raw src with
    | .error actions => actions
    | .ok key =>
      let resp := (StunMessage.withTransactionId .binding .successResponse msg.transactionId).add
        (.xorMappedAddress src)
      let resp := match p.settings.software with
        | some name => resp.add (.software name)
        | none => resp
      match key, p.settings.requireBindingAuth with
      | some key, true => encodeOrDrop (encodeWithIntegrityAuto env.authEnv.crypto resp 256 key msg) src
      | _, _ => encodeOrDrop (resp.encode 256) src

end Processor

/-! ## Refresh, CreatePermission, ChannelBind, CONNECT and Send -/

/-- An answer signed with the key of the request, in a buffer of 1024 bytes. -/
def signedReply (env : Surroundings) (msg : StunMessage) (key : Bytes) (resp : StunMessage) : Except StunError Bytes :=
  encodeWithIntegrityAuto env.authEnv.crypto resp 1024 key msg

/-- Capped by the server and by what is left of an OAuth token. -/
def requestedLifetime (msg : StunMessage) : UInt32 := min (msg.getLifetime.getD defaultLifetime) maxLifetime

def capLifetime (lifetime : UInt32) (cap : Option UInt32) : UInt32 := (cap.map (min lifetime)).getD lifetime

def dynamicCap (lifetime : UInt32) (cap : Nat) : UInt32 :=
  if 0 < cap then UInt32.ofNat (min lifetime.toNat cap) else lifetime

namespace Processor

variable (p : Processor) (env : Surroundings)

/-! ## Refresh -/

/-- The policy is looked up under the raw USERNAME; the resolved subject stands in only if there is none. -/
def refreshLifetime (msg : StunMessage) (src : SocketAddr) (auth : AuthResolution) :
    Except (List Action) UInt32 :=
  let lifetime := requestedLifetime msg
  if auth.maxLifetimeSecs = some 0 ∧ 0 < lifetime then .error (encodeError msg src 401 "Unauthorized")
  else
    let lifetime := capLifetime lifetime auth.maxLifetimeSecs
    if 0 < lifetime then
      let username := msg.getUsername.getD auth.subject
      let (dynamicMax, lifetimeDisabled) := p.store.lifetimePolicyForUser auth.realm auth.tenantId username
      if lifetimeDisabled then .error (encodeError msg src 486 "Allocation Quota Reached")
      else .ok (dynamicCap lifetime dynamicMax)
    else .ok lifetime

def ticketTarget (ticket : Bytes) (mgr : MigrationManager) : Option (SocketAddr × String × UInt64) :=
  match mgr.verifyTicket env.authEnv.crypto env.unixSecs ticket with
  | none => none
  | some (allocId, epoch) =>
    match p.store.getById allocId with
    | none => none
    | some oldAddr =>
      if (p.store.get oldAddr).map Allocation.migrationEpoch = some epoch then some (oldAddr, allocId, epoch)
      else none

def finishMigration (msg : StunMessage) (src : SocketAddr) (key : Bytes) (lifetime : UInt32)
    (mgr : MigrationManager) (allocId : String) (epoch : UInt64) (relayAddr : SocketAddr) :
    List Action × Processor :=
  let p := { p with store := (p.store.refresh env.order env.clock src lifetime).2 }
  let newEpoch := ((p.store.get src).map Allocation.migrationEpoch).getD (epoch + 1)
  let ticket := mgr.issueToken env.authEnv.crypto env.unixSecs allocId newEpoch
  let resp := (((buildSuccessResponse .refresh msg.transactionId).add (.lifetime lifetime)).add
    (.xorMappedAddress src)).add (.mobilityTicket ticket)
  match signedReply env msg key resp with
  | .error _ => ([.none], p)
  | .ok data =>
    if lifetime = 0 then
      ([.send data src, .closeRelay relayAddr.port], { p with activeAllocations := p.activeAllocations - 1 })
    else ([.send data src], p)

/-- No answer if it is no attempt to migrate. -/
def tryMigrationRefresh (msg : StunMessage) (src : SocketAddr) (key : Bytes) (lifetime : UInt32) :
    Option (List Action × Processor) :=
  match p.settings.migration, msg.getMobilityTicket with
  | some mgr, some ticket =>
    if ticket = [] then none
    else
      match p.ticketTarget env ticket mgr with
      | none => some (encodeError msg src 437 "Allocation Mismatch", p)
      | some (oldAddr, allocId, epoch) =>
        match p.store.reKey env.order env.clock oldAddr src with
        | (.error _, store) => some (encodeError msg src 437 "Allocation Mismatch", { p with store })
        | (.ok relayAddr, store) =>
          some ({ p with store }.finishMigration env msg src key lifetime mgr allocId epoch relayAddr)
  | _, _ => none

def refreshAt (msg : StunMessage) (src : SocketAddr) (key : Bytes) (lifetime : UInt32) : List Action × Processor :=
  let relayPort := (p.store.get src).map (fun a => a.relayAddr.port)
  match p.store.refresh env.order env.clock src lifetime with
  | (.error _, store) => (encodeError msg src 437 "Allocation Mismatch", { p with store })
  | (.ok _, store) =>
    let p := { p with store }
    match signedReply env msg key ((buildSuccessResponse .refresh msg.transactionId).add (.lifetime lifetime)) with
    | .error _ => ([.none], p)
    | .ok data =>
      if lifetime = 0 then
        (.send data src :: relayPort.toList.map Action.closeRelay,
          { p with activeAllocations := p.activeAllocations - 1 })
      else ([.send data src], p)

def refreshGranted (msg : StunMessage) (src : SocketAddr) (key : Bytes) (lifetime : UInt32) :
    List Action × Processor :=
  match p.store.get src with
  | some _ => p.refreshAt env msg src key lifetime
  | none => (p.tryMigrationRefresh env msg src key lifetime).getD (p.refreshAt env msg src key lifetime)

def handleRefresh (msg : StunMessage) (raw : Bytes) (src : SocketAddr) : List Action × Processor :=
  match authenticate env msg src raw with
  | .error actions => (actions, p)
  | .ok auth =>
    match p.refreshLifetime msg src auth with
    | .error actions => (actions, p)
    | .ok lifetime => p.refreshGranted env msg src auth.key lifetime

/-! ## CreatePermission -/

def peerIps (msg : StunMessage) : List IpAddr := msg.attributes.filterMap fun
  | .xorPeerAddress addr => some (normalizeIp addr.ip)
  | _ => none

def maxPeers : Nat := 32

def refusePeers (msg : StunMessage) (src : SocketAddr) : List IpAddr → Option (List Action)
  | [] => none
  | peer :: peers =>
    if p.settings.policy.isForbidden peer then some (encodeError msg src 403 "Forbidden")
    else if p.peerFamilyMismatch src peer then some (encodeError msg src 443 "Peer Address Family Mismatch")
    else refusePeers msg src peers

def installPermissions (src : SocketAddr) : (peers : List IpAddr) → (store : AllocationStore) →
    Except SessionError Unit × AllocationStore
  | [], store => (.ok (), store)
  | peer :: peers, store =>
    match store.addPermission env.clock src peer with
    | (.error e, store) => (.error e, store)
    | (.ok _, store) => installPermissions src peers store

def handleCreatePermission (msg : StunMessage) (raw : Bytes) (src : SocketAddr) : List Action × Processor :=
  match authenticate env msg src raw with
  | .error actions => (actions, p)
  | .ok auth =>
    let peers := peerIps msg
    if peers = [] then (encodeError msg src 400 "Bad Request", p)
    else if maxPeers < peers.length then (encodeError msg src 400 "Bad Request: too many peers", p)
    else
      match p.refusePeers msg src peers with
      | some actions => (actions, p)
      | none =>
        match installPermissions env src peers p.store with
        | (.error .limitExceeded, store) => (encodeError msg src 486 "Allocation Quota Reached", { p with store })
        | (.error _, store) => (encodeError msg src 437 "Allocation Mismatch", { p with store })
        | (.ok _, store) =>
          (encodeOrDrop (signedReply env msg auth.key (buildSuccessResponse .createPermission msg.transactionId)) src,
            { p with store })

/-! ## ChannelBind -/

def bindTarget (msg : StunMessage) (src : SocketAddr) : Except (List Action) (UInt16 × SocketAddr) :=
  match msg.getChannelNumber, msg.getXorPeerAddress with
  | some channel, some peerAddr =>
    if !isValidChannel channel then .error (encodeError msg src 400 "Bad Request: invalid channel")
    else
      let peerAddr := normalizeAddr peerAddr
      if p.settings.policy.isForbidden peerAddr.ip then .error (encodeError msg src 403 "Forbidden")
      else if p.peerFamilyMismatch src peerAddr.ip then
        .error (encodeError msg src 443 "Peer Address Family Mismatch")
      else .ok (channel, peerAddr)
  | _, _ => .error (encodeError msg src 400 "Bad Request")

def handleChannelBind (msg : StunMessage) (raw : Bytes) (src : SocketAddr) : List Action × Processor :=
  match authenticate env msg src raw with
  | .error actions => (actions, p)
  | .ok auth =>
    match p.bindTarget msg src with
    | .error actions => (actions, p)
    | .ok (channel, peerAddr) =>
      match p.store.addChannel env.clock src channel peerAddr with
      | (.ok _, store) =>
        (encodeOrDrop (signedReply env msg auth.key (buildSuccessResponse .channelBind msg.transactionId)) src,
          { p with store })
      | (.error .channelConflict, store) => (encodeError msg src 400 "Bad Request", { p with store })
      | (.error .limitExceeded, store) => (encodeError msg src 486 "Allocation Quota Reached", { p with store })
      | (.error _, store) => (encodeError msg src 437 "Allocation Mismatch", { p with store })

/-! ## CONNECT -/

inductive ConnectDecision where
  | reject (actions : List Action)
  | proceed (peer : SocketAddr) (key : Bytes) (relayPort : UInt16)
  deriving DecidableEq

def connectDecision (msg : StunMessage) (raw : Bytes) (src : SocketAddr) : ConnectDecision :=
  match authenticate env msg src raw with
  | .error actions => .reject actions
  | .ok auth =>
    match msg.getXorPeerAddress with
    | none => .reject (encodeError msg src 400 "Bad Request")
    | some peer =>
      match p.store.get src with
      | none => .reject (encodeError msg src 437 "Allocation Mismatch")
      | some a =>
        if a.transport ≠ .tcp then .reject (encodeError msg src 400 "Bad Request")
        else if !a.hasPermission env.clock.now peer then .reject (encodeError msg src 403 "Forbidden")
        else .proceed peer auth.key a.relayAddr.port

/-! ## Send indication -/

def withinBandwidth (a : Allocation) : Bool :=
  let (limit, disabled) := p.store.bandwidthPolicyForUser a.realm a.tenantId a.username
  !disabled && (limit == 0 || env.bandwidthOk)

def handleSendIndication (msg : StunMessage) (src : SocketAddr) : List Action × Processor :=
  match msg.getXorPeerAddress, msg.getData with
  | some peerAddr, some data =>
    let peerAddr := normalizeAddr peerAddr
    if p.settings.policy.isForbidden peerAddr.ip then ([.none], p)
    else if p.peerFamilyMismatch src peerAddr.ip then ([.none], p)
    else if msg.hasDontFragment && decide (p.settings.mtu.toNat < data.length) then ([.none], p)
    else
      match p.store.get src with
      | none => ([.none], p)
      | some a =>
        if a.isExpired env.clock.now then ([.none], p)
        else if !a.hasPermission env.clock.now peerAddr then ([.none], p)
        else if !p.withinBandwidth env a then ([.none], p)
        else if !env.capacityOk then ([.none], p)
        else
          ([.sendViaRelay data peerAddr a.relayAddr.port],
            { p with store := p.store.meter src (a.addBytes data.length) })
  | _, _ => ([.none], p)

end Processor

/-! ## Relay ports -/

inductive RelayFamily where
  | v4
  | v6
  deriving DecidableEq, Repr

def tokenOfBytes (token : List.Vector UInt8 8) : Token := Bytes.uint64At token.toList 0

def bytesOfToken (token : Token) : List.Vector UInt8 8 :=
  ⟨Bytes.ofUInt32 (token >>> 32).toUInt32 ++ Bytes.ofUInt32 token.toUInt32, by simp⟩

namespace Processor

variable (p : Processor) (env : Surroundings)

/-! ## Drawing a port -/

inductive PortRequest where
  | reserved (token : Token)
  | even (reserveNext : Bool)
  | any

def portRequest (msg : StunMessage) (src : SocketAddr) : Except (List Action) (PortRequest × RelayFamily) :=
  let wantsV6 := msg.getRequestedAddressFamily == some .ipv6
  if wantsV6 && p.settings.externalIp6.isNone then .error (encodeError msg src 440 "Address Family not Supported")
  else
    let family := if wantsV6 then RelayFamily.v6 else .v4
    if msg.getRequestedAddressFamily.isSome && msg.getReservationToken.isSome then
      .error (encodeError msg src 400 "Bad Request")
    else
      match msg.getEvenPort, msg.getReservationToken with
      | some _, some _ => .error (encodeError msg src 400 "Bad Request")
      | none, some token => .ok (.reserved (tokenOfBytes token), family)
      | some reserveNext, none => .ok (.even reserveNext, family)
      | none, none => .ok (.any, family)

def PortRequest.run (req : PortRequest) (pool : PortAllocator) : Option (UInt16 × Option Token) × PortAllocator :=
  match req with
  | .reserved token =>
    let (port, pool) := pool.claimAndBind env.bindOk env.clock.now token
    (port.map (·, none), pool)
  | .even reserveNext =>
    pool.allocateEvenAndBind env.bindOk env.clock.now env.token reserveNext PortAllocator.bindRounds
  | .any =>
    let (port, pool) := pool.allocateAndBind env.bindOk PortAllocator.bindRounds
    (port.map (·, none), pool)

def drawPort (tenantId : Option String) (req : PortRequest) : Option (UInt16 × Option Token) × Processor :=
  ((req.run env (p.store.pool tenantId)).1,
    { p with store := p.store.updatePool (fun pool => (req.run env pool).2) (p.store.poolId tenantId) })

def giveBack (port : UInt16) (issued : Option Token) : Processor :=
  let store := match issued with
    | some token => p.store.updatePool (fun pool => pool.cancelReservation token) (p.store.poolIdForPort port)
    | none => p.store
  { p with store := store.updatePool (fun pool => pool.release port) (store.poolIdForPort port) }

/-! ## Publishing the allocation -/

def relayAddress (family : RelayFamily) (port : UInt16) : SocketAddr :=
  match family, p.settings.externalIp6 with
  | .v6, some ip6 => .new (.v6 ip6) port
  | _, _ => .new p.settings.externalIp port

def createRequest (auth : AuthResolution) (src relayAddr : SocketAddr) (lifetime : UInt32) : CreateRequest where
  clientAddr := src
  relayAddr := relayAddr
  username := auth.subject
  key := auth.key
  lifetime := lifetime
  realm := auth.realm
  tenantId := auth.tenantId

def allocateLifetime (msg : StunMessage) (auth : AuthResolution) : Option UInt32 :=
  let lifetime := capLifetime (requestedLifetime msg) auth.maxLifetimeSecs
  let (dynamicLifetime, lifetimeDisabled) := p.store.lifetimePolicyForUser auth.realm auth.tenantId auth.subject
  if lifetimeDisabled then none else some (dynamicCap lifetime dynamicLifetime)

def createRefused (msg : StunMessage) (src : SocketAddr) : SessionError → List Action
  | .allocationExists => encodeError msg src 437 "Allocation Mismatch"
  | _ => encodeError msg src 508 "Insufficient Capacity"

/-- A ticket for a client that asked for one, and the token of a reserved port. -/
def allocateResponse (msg : StunMessage) (src relayAddr : SocketAddr) (lifetime : UInt32)
    (allocationId : String) (epoch : UInt64) (issued : Option Token) : StunMessage :=
  let resp := buildAllocateResponse msg.transactionId relayAddr src lifetime
  let resp := match p.settings.migration with
    | some mgr =>
      if msg.hasMobilityTicket then
        resp.add (.mobilityTicket
          (mgr.issueToken env.authEnv.crypto env.unixSecs allocationId epoch))
      else resp
    | none => resp
  match issued with
  | some token => resp.add (.reservationToken (bytesOfToken token))
  | none => resp

def announceUdp (msg : StunMessage) (src : SocketAddr) (auth : AuthResolution) (relayAddr : SocketAddr)
    (lifetime : UInt32) (issued : Option Token) : List Action × Processor :=
  let p := { p with activeAllocations := p.activeAllocations + 1 }
  let (allocationId, epoch) := match p.store.get src with
    | some a => (a.allocationId, a.migrationEpoch)
    | none => ("", 0)
  let resp := p.allocateResponse env msg src relayAddr lifetime allocationId epoch issued
  match signedReply env msg auth.key resp with
  | .error _ => ([.none], p)
  | .ok data => ([.registerRelay relayAddr.port src allocationId, .send data src], p)

def allocateUdpAt (msg : StunMessage) (src : SocketAddr) (auth : AuthResolution) (family : RelayFamily)
    (port : UInt16) (issued : Option Token) : List Action × Processor :=
  let relayAddr := p.relayAddress family port
  match p.allocateLifetime msg auth with
  | none => (encodeError msg src 486 "Allocation Quota Reached", p.giveBack port issued)
  | some lifetime =>
    match p.store.createForIdentity env.clock (createRequest auth src relayAddr lifetime) with
    | (.error e, store) => (createRefused msg src e, { p with store }.giveBack port issued)
    | (.ok _, store) => { p with store }.announceUdp env msg src auth relayAddr lifetime issued

def allocateUdp (msg : StunMessage) (src : SocketAddr) (auth : AuthResolution) : List Action × Processor :=
  match p.portRequest msg src with
  | .error actions => (actions, p)
  | .ok (req, family) =>
    match p.drawPort env auth.tenantId req with
    | (none, p) => (encodeError msg src 508 "Insufficient Capacity", p)
    | (some (port, issued), p) => p.allocateUdpAt env msg src auth family port issued

/-! ## TCP allocations -/

/-- The family of a TCP allocation; IPv6 needs an address to advertise and the switch of the engine. -/
def tcpFamily (msg : StunMessage) (src : SocketAddr) : Except (List Action) RelayFamily :=
  if msg.getEvenPort.isSome || msg.getReservationToken.isSome || msg.hasDontFragment then
    .error (encodeError msg src 400 "Bad Request")
  else
    let requestedV6 := msg.getRequestedAddressFamily == some .ipv6
    let allowedV6 := p.settings.externalIp6.isSome && p.settings.tcpRelay == some true
    if requestedV6 && !allowedV6 then .error (encodeError msg src 440 "Address Family not Supported")
    else if !requestedV6 && p.settings.externalIp.isIpv6 then
      .error (encodeError msg src 440 "Address Family not Supported")
    else .ok (if requestedV6 then .v6 else .v4)

def announceTcp (msg : StunMessage) (src : SocketAddr) (auth : AuthResolution) (relayAddr : SocketAddr)
    (lifetime : UInt32) : List Action × Processor :=
  let p := { p with
    store := (p.store.setTransport src .tcp).2
    activeAllocations := p.activeAllocations + 1 }
  match signedReply env msg auth.key (buildAllocateResponse msg.transactionId relayAddr src lifetime) with
  | .error _ => ([.none], p)
  | .ok data => ([.registerTcpListener relayAddr.port src auth.key, .send data src], p)

def allocateTcpAt (msg : StunMessage) (src : SocketAddr) (auth : AuthResolution) (family : RelayFamily)
    (lifetime : UInt32) (port : UInt16) : List Action × Processor :=
  let relayAddr := p.relayAddress family port
  if !env.bindOk 0 then (encodeError msg src 508 "Insufficient Capacity", p.giveBack port none)
  else
    match p.store.createForIdentity env.clock (createRequest auth src relayAddr lifetime) with
    | (.error e, store) => (createRefused msg src e, { p with store }.giveBack port none)
    | (.ok _, store) => { p with store }.announceTcp env msg src auth relayAddr lifetime

def handleAllocateTcp (msg : StunMessage) (src : SocketAddr) (auth : AuthResolution) : List Action × Processor :=
  match p.tcpFamily msg src with
  | .error actions => (actions, p)
  | .ok family =>
    match p.allocateLifetime msg auth with
    | none => (encodeError msg src 486 "Allocation Quota Reached", p)
    | some lifetime =>
      let pool := p.store.pool auth.tenantId
      let p := { p with
        store := p.store.updatePool (fun pool => pool.allocate.2) (p.store.poolId auth.tenantId) }
      match pool.allocate.1 with
      | .error _ => (encodeError msg src 508 "Insufficient Capacity", p)
      | .ok port => p.allocateTcpAt env msg src auth family lifetime port

/-! ## Allocate -/

def allocateTransport (msg : StunMessage) (src : SocketAddr) (auth : AuthResolution) (ingressTcp : Bool) :
    Except (List Action) Bool :=
  if env.draining then .error (encodeError msg src 508 "Server Draining")
  else if auth.maxLifetimeSecs = some 0 then .error (encodeError msg src 401 "Unauthorized")
  else if (p.store.get src).isSome then .error (encodeError msg src 437 "Allocation Mismatch")
  else
    let wantTcp := msg.getRequestedTransport == some transportTcp && p.settings.tcpRelay.isSome
    if msg.getRequestedTransport != some transportUdp && !wantTcp then
      .error (encodeError msg src 442 "Unsupported Transport Protocol")
    else if wantTcp && !ingressTcp then .error (encodeError msg src 400 "Bad Request")
    else .ok wantTcp

def handleAllocate (msg : StunMessage) (raw : Bytes) (src : SocketAddr) (ingressTcp : Bool) :
    List Action × Processor :=
  match authenticate env msg src raw with
  | .error actions => (actions, p)
  | .ok auth =>
    match p.allocateTransport env msg src auth ingressTcp with
    | .error actions => (actions, p)
    | .ok true => p.handleAllocateTcp env msg src auth
    | .ok false => p.allocateUdp env msg src auth

end Processor

namespace Processor

variable (p : Processor) (env : Surroundings)

/-! ## ChannelData -/

/-- The payload as offset and length, with its target and relay port. -/
def channelDataDecision (raw : Bytes) (src : SocketAddr) : Option (Nat × Nat × SocketAddr × UInt16) × Processor :=
  match decodeChannelData raw with
  | .error _ => (none, p)
  | .ok (channel, length) =>
    match p.store.get src with
    | none => (none, p)
    | some a =>
      if a.isExpired env.clock.now then (none, p)
      else
        match a.getChannelPeer env.clock.now channel with
        | none => (none, p)
        | some peerAddr =>
          if !p.withinBandwidth env a then (none, p)
          else if !env.capacityOk then (none, p)
          else
            (some (4, length, peerAddr, a.relayAddr.port),
              { p with store := p.store.meter src (a.addBytes length) })

def processChannelData (raw : Bytes) (src : SocketAddr) : List Action × Processor :=
  match p.channelDataDecision env raw src with
  | (some (offset, length, target, relayPort), p) => ([.forward (raw.slice offset length) target relayPort], p)
  | (none, p) => ([.none], p)

/-! ## STUN -/

def dispatchStun (msg : StunMessage) (raw : Bytes) (src : SocketAddr) (ingressTcp : Bool) : List Action × Processor :=
  let early :=
    if msg.cls = .request then
      match rejectUnknownComprehensionRequired msg src with
      | some actions => some actions
      | none => p.maybeRedirectNewClient env msg src
    else none
  match early with
  | some actions => (actions, p)
  | none =>
    let quotaReached := encodeError msg src 486 "Allocation Quota Reached"
    match msg.cls, msg.method with
    | .request, .binding => (p.handleBinding env msg raw src, p)
    | .request, .allocate =>
      if !env.allocateOk then (quotaReached, p) else p.handleAllocate env msg raw src ingressTcp
    | .request, .refresh => if !env.allocateOk then (quotaReached, p) else p.handleRefresh env msg raw src
    | .request, .createPermission =>
      if !env.createPermissionOk then (quotaReached, p) else p.handleCreatePermission env msg raw src
    | .request, .channelBind =>
      if !env.channelBindOk then (quotaReached, p) else p.handleChannelBind env msg raw src
    | .indication, .send => p.handleSendIndication env msg src
    | _, _ => ([.none], p)

def cacheable (msg : StunMessage) (raw : Bytes) (ingressTcp : Bool) : Bool :=
  !ingressTcp && decide (raw.length ≤ 4096) && msg.cls == .request && msg.hasUserIdentity &&
    (msg.method == .refresh || (msg.method == .allocate && msg.getRequestedTransport == some 17))

def isSuccess (data : Bytes) : Bool :=
  decide (20 ≤ data.length) && data.byteAt 0 &&& 0x01 != 0 && data.byteAt 1 &&& 0x10 == 0

def successReply (src : SocketAddr) (actions : List Action) : Option Bytes := actions.findSome? fun
  | .send data target => if target = src ∧ isSuccess data then some data else none
  | _ => none

/-- A transaction that is not in the cache: the answer is kept if it is a success. -/
def processFresh (msg : StunMessage) (raw : Bytes) (src : SocketAddr) (cache : Cache) : List Action × Processor :=
  let (actions, p) := p.dispatchStun env msg raw src false
  let cache := match successReply src actions with
    | some data => cache.insert src raw data env.answeredAt
    | none => cache
  (actions, { p with udpTransactions := p.udpTransactions.setShard src cache })

def processStun (raw : Bytes) (src : SocketAddr) (ingressTcp : Bool) : List Action × Processor :=
  match StunMessage.decode raw with
  | .error _ => ([.none], p)
  | .ok msg =>
    if cacheable msg raw ingressTcp then
      let cache := (p.udpTransactions.shard src).expire env.clock.now
      let expired := { p with udpTransactions := p.udpTransactions.setShard src cache }
      match cache.lookup src raw with
      | .reply data => ([.send data src], expired)
      | .conflict => ([.none], expired)
      | .miss => p.processFresh env msg raw src cache
    else p.dispatchStun env msg raw src ingressTcp

/-! ## Entry points -/

def processImpl (raw : Bytes) (src : SocketAddr) (ingressTcp : Bool) : List Action × Processor :=
  if env.banned then ([.none], p)
  else if !isChannelData raw && !isStunMessage raw then ([.none], p)
  else if isChannelData raw then
    if !env.ingressIpOk then ([.none], p) else p.processChannelData env raw src
  else if !env.ingressOk then ([.none], p)
  else p.processStun env raw src ingressTcp

def process (raw : Bytes) (src : SocketAddr) : List Action × Processor := p.processImpl env raw src false

def processTcpControl (raw : Bytes) (src : SocketAddr) : List Action × Processor := p.processImpl env raw src true

/-- A ChannelData payload is forwarded by offset and length. -/
def processSlice (raw : Bytes) (src : SocketAddr) : List Action × Processor :=
  if env.zerocopyForward && isChannelData raw then
    if env.banned then ([.none], p)
    else if !env.ingressIpOk then ([.none], p)
    else
      match p.channelDataDecision env raw src with
      | (some (offset, length, target, relayPort), p) => ([.forwardZeroCopy offset length target relayPort], p)
      | (none, p) => ([.none], p)
  else p.process env raw src

/-- The frame or indication in which a peer's packet goes to the client. -/
def peerFrame (a : Allocation) (now : Nat) (data : Bytes) (peerAddr : SocketAddr) : Except StunError Bytes :=
  match a.getPeerChannel now peerAddr with
  | some channel => encodeChannelData (Bytes.padded (4 + data.length)) channel data
  | none =>
    let ind := ((StunMessage.withTransactionId .data .indication (List.Vector.replicate 12 0)).add
      (.xorPeerAddress peerAddr)).add (.data data)
    ind.encode 4096

/-- The packet is counted before it is put into its frame. -/
def processRelayRecv (data : Bytes) (peerAddr relayAddr : SocketAddr) : List Action × Processor :=
  let peerAddr := normalizeAddr peerAddr
  match p.store.getByRelay relayAddr with
  | none => ([.none], p)
  | some clientAddr =>
    match p.store.get clientAddr with
    | none => ([.none], p)
    | some a =>
      if a.isExpired env.clock.now then ([.none], p)
      else if !a.hasPermission env.clock.now peerAddr then ([.none], p)
      else if !p.withinBandwidth env a then ([.none], p)
      else if !env.capacityOk then ([.none], p)
      else
        (encodeOrDrop (peerFrame a env.clock.now data peerAddr) a.clientAddr,
          { p with store := p.store.meter clientAddr (a.addBytesToClient data.length) })

/-! ## Connections that end or move -/

def releaseForClosedConnection (client : SocketAddr) : List Action × Processor :=
  match p.store.get client with
  | none => ([], p)
  | some a =>
    match p.store.refresh env.order env.clock client 0 with
    | (.error _, store) => ([], { p with store })
    | (.ok _, store) =>
      ([.closeRelay a.relayAddr.port], { p with store, activeAllocations := p.activeAllocations - 1 })

def migrateQuicAllocation (oldAddr newAddr : SocketAddr) : Except SessionError Unit × Processor :=
  if oldAddr = newAddr then (.ok (), p)
  else
    match p.store.get oldAddr with
    | some _ =>
      let (result, store) := p.store.reKey env.order env.clock oldAddr newAddr
      (result.map (fun _ => ()), { p with store })
    | none =>
      match p.store.get newAddr with
      | some _ => (.error .migrationTargetInUse, p)
      | none => (.ok (), p)

end Processor

/-! ## A small server

The parts from which concrete runs are put together.
-/

namespace Scenario

def primitives : Primitives where
  hmacSha1 _ _ := .replicate 20 0
  hmacSha256 _ _ := .replicate 32 0
  md5 _ := .replicate 16 0
  sha256 _ := .replicate 32 0
  crc32 _ := 0
  base64 _ := ""
  aeadDecrypt _ _ _ _ := none

def surroundings (mode : AuthMode) (now : Nat) : Surroundings where
  clock := ⟨now, now / 1000000⟩
  answeredAt := now
  order := .stored
  auth := ⟨.empty, mode, mode.realm⟩
  authEnv := ⟨primitives, 0, false, 0, fun _ => .notFound⟩
  nonceValid _ _ := true
  freshNonce := "n"
  banned := false
  ingressIpOk := true
  ingressOk := true
  allocateOk := true
  createPermissionOk := true
  channelBindOk := true
  bindingReplyOk := true
  unauthReplyOk := true
  bandwidthOk := true
  capacityOk := true
  zerocopyForward := true
  draining := false
  redirect := none
  bindOk _ := true
  token k := UInt64.ofNat (k + 1)

def longTerm : AuthMode :=
  .longTerm "r" ((HashMap.empty.insert "alice" ⟨[1], [1]⟩).insert "bob" ⟨[2], [2]⟩) .empty false

def sharedSecret : AuthMode := .sharedSecret "r" [1] none

def externalIp : IpAddr := .v4 ⟨203, 0, 113, 1⟩

def settings : Settings where
  externalIp := externalIp
  externalIp6 := none
  mtu := 1200
  migration := some ⟨[7], 3600⟩
  tcpRelay := some false
  requireBindingAuth := false
  software := none
  policy := ⟨[], [], false, false, [], []⟩

def server : Processor where
  settings := settings
  store := .new 50000 50007 0 0
  activeAllocations := 0
  udpTransactions := .new (fun _ => ⟨0, by decide⟩)

def client (host : UInt8) : SocketAddr := .v4 ⟨192, 0, 2, host⟩ 4000

def peer (host : UInt8) : SocketAddr := .v4 ⟨198, 51, 100, host⟩ 5000

def request (method : Method) (tid : UInt8) (user : String) (attrs : List Attribute) : StunMessage where
  cls := .request
  method := method
  transactionId := .replicate 12 tid
  attributes := [.username user, .realm "r", .nonce "n"] ++ attrs

def wire (msg : StunMessage) : Bytes := (msg.encodeWithIntegrity primitives 4096 []).toOption.getD []

def arrived (msg : StunMessage) : StunMessage := (StunMessage.decode (wire msg)).toOption.getD msg

def allocateUdp (tid : UInt8) (user : String) : StunMessage :=
  request .allocate tid user [.requestedTransport transportUdp]

end Scenario

/-! ## Nonces of the server -/

open Option

def userhashNonceCookie : String := "obMatJos2QAAA"

structure NonceManager where
  serverKey : List.Vector UInt8 32
  maxAgeMs : UInt64
  cookie : Option String

inductive NonceStatus where
  | valid
  | stale
  deriving DecidableEq, Repr

namespace NonceManager

def withCookie (serverKey : List.Vector UInt8 32) (cookie : Option String) : NonceManager :=
  ⟨serverKey, 630000, cookie⟩

variable (mgr : NonceManager) (c : Primitives) (nowMs : UInt64) (client : SocketAddr)

def issue : String :=
  let nonce := issueClientNonce c mgr.serverKey.toList client.toString nowMs
  match mgr.cookie with
  | some cookie => cookie ++ nonce
  | none => nonce

def body (nonce : String) : Option String :=
  match mgr.cookie with
  | some cookie =>
    if cookie.toList.isPrefixOf nonce.toList then some (String.ofList (nonce.toList.drop cookie.toList.length)) else none
  | none => some nonce

def validate (nonce : String) : NonceStatus :=
  match mgr.body nonce with
  | none => .stale
  | some nonce =>
    match verifyClientNonce c mgr.serverKey.toList client.toString nonce with
    | some issuedMs => if nowMs.toNat - issuedMs.toNat ≤ mgr.maxAgeMs.toNat then .valid else .stale
    | none => .stale

/-- A nonce with the cookie, the client's whole tag and an issue time that is not too old. -/
def Genuine (nonce : String) : Prop :=
  ∃ inner tsMs, nonce = (mgr.cookie.getD "") ++ inner ∧ CarriesTag c mgr.serverKey.toList client.toString inner tsMs ∧
    nowMs.toNat ≤ tsMs.toNat + mgr.maxAgeMs.toNat

variable {mgr c nowMs client} {nonce : String}

theorem eq_of_body {inner : String} (h : mgr.body nonce = some inner) : nonce = (mgr.cookie.getD "") ++ inner := by
  rw [body] at h
  split at h
  · next cookie hCookie =>
    split at h
    · next hStarts =>
      cases h
      rw [hCookie, getD_some]
      obtain ⟨rest, hRest⟩ := List.isPrefixOf_iff_prefix.mp hStarts
      apply String.toList_inj.mp
      rw [String.toList_append, String.toList_ofList, ← hRest, List.drop_left]
    · cases h
  · next hCookie =>
    cases h
    rw [hCookie, getD_none, String.empty_append]

theorem valid_spec (h : mgr.validate c nowMs client nonce = .valid) : ∃ inner tsMs, mgr.body nonce = some inner ∧
    verifyClientNonce c mgr.serverKey.toList client.toString inner = some tsMs ∧
      nowMs.toNat ≤ tsMs.toNat + mgr.maxAgeMs.toNat := by
  rw [validate] at h
  split at h
  · cases h
  next inner hBody =>
  split at h
  · next tsMs hVerify =>
    split at h
    · next hAge => exact ⟨inner, tsMs, hBody, hVerify, by omega⟩
    · cases h
  · cases h

theorem body_of_eq {inner : String} (h : nonce = (mgr.cookie.getD "") ++ inner) : mgr.body nonce = some inner := by
  rw [body]
  cases hCookie : mgr.cookie with
  | none =>
    rw [hCookie, getD_none, String.empty_append] at h
    rw [h]
  | some cookie =>
    rw [hCookie, getD_some] at h
    dsimp only
    rw [h, String.toList_append, if_pos (List.isPrefixOf_iff_prefix.mpr (List.prefix_append _ _)), List.drop_left,
      String.ofList_toList]

theorem validate_issue_iff {laterMs : UInt64} : mgr.validate c laterMs client (mgr.issue c nowMs client) = .valid ↔
    laterMs.toNat ≤ nowMs.toNat + mgr.maxAgeMs.toNat := by
  have hBody : mgr.body (mgr.issue c nowMs client) =
      some (issueClientNonce c mgr.serverKey.toList client.toString nowMs) := by
    refine body_of_eq ?_
    rw [issue]
    cases mgr.cookie with
    | none => rw [getD_none, String.empty_append]
    | some cookie => rw [getD_some]
  rw [validate, hBody]
  dsimp only
  rw [verify_issueClientNonce, ite_eq_left_iff]
  simp [Nat.add_comm]

theorem genuine_iff (h : mgr.validate c nowMs client nonce = .valid) :
    mgr.Genuine c nowMs client nonce ↔ ∃ inner, mgr.body nonce = some inner ∧ nonceMacLen ≤ tagLength inner := by
  obtain ⟨inner, tsMs, hBody, hVerify, hAge⟩ := valid_spec h
  have hCarries := carriesTag_iff hVerify
  constructor
  · rintro ⟨inner', tsMs', hEq, hTag, -⟩
    cases hBody.symm.trans (body_of_eq hEq)
    obtain ⟨tag, hPresented, hTake⟩ := hTag
    obtain ⟨tag', hPresented', -⟩ := verify_spec hVerify
    cases hPresented'.symm.trans hPresented
    exact ⟨inner, hBody, hCarries.mp ⟨tag, hPresented, hTake⟩⟩
  · rintro ⟨inner', hBody', hLong⟩
    cases hBody.symm.trans hBody'
    exact ⟨inner, tsMs, eq_of_body hBody, hCarries.mpr hLong, hAge⟩

end NonceManager

theorem validate_one_byte (c : Primitives) (mgr : NonceManager) (nowMs : UInt64) (client : SocketAddr) {nonce : String}
    (hNonce : nonce = (mgr.cookie.getD "") ++
      renderNonce nowMs ((nonceMac c mgr.serverKey.toList client.toString nowMs).toList.take 1)) :
    mgr.validate c nowMs client nonce = .valid ∧ ¬ mgr.Genuine c nowMs client nonce := by
  have hBody := NonceManager.body_of_eq hNonce
  obtain ⟨hVerify, hLength⟩ := @verify_one_byte c mgr.serverKey.toList client.toString nowMs
  have hValid : mgr.validate c nowMs client nonce = .valid := by
    rw [NonceManager.validate, hBody]
    dsimp only
    rw [hVerify]
    exact if_pos (by rw [Nat.sub_self]; exact Nat.zero_le _)
  refine ⟨hValid, fun hGenuine => ?_⟩
  obtain ⟨inner, hBody', hLong⟩ := (NonceManager.genuine_iff hValid).mp hGenuine
  cases hBody.symm.trans hBody'
  rw [hLength] at hLong
  exact absurd hLong (by decide)

theorem short_tag_accepted :
    (NonceManager.withCookie (.replicate 32 0) none).validate Scenario.primitives 5 (Scenario.client 1) "5:AA" = .valid ∧
      ¬ (NonceManager.withCookie (.replicate 32 0) none).Genuine Scenario.primitives 5 (Scenario.client 1) "5:AA" :=
  validate_one_byte _ _ _ _ (by decide +kernel)

/-- What the verifier takes carries the whole tag exactly if it presents sixteen bytes. -/
theorem nonce_carries_tag (c : Primitives) (serverKey : Bytes) (client nonce : String) (mgr : NonceManager)
    (nowMs : UInt64) (addr : SocketAddr) :
    ((∀ tsMs, verifyClientNonce c serverKey client nonce = some tsMs → CarriesTag c serverKey client nonce tsMs) ↔
      (verifyClientNonce c serverKey client nonce = none ∨ nonceMacLen ≤ tagLength nonce)) ∧
    (∀ tsMs, verifyClientNonce c serverKey client (issueClientNonce c serverKey client tsMs) = some tsMs) ∧
    ((mgr.validate c nowMs addr nonce = .valid → mgr.Genuine c nowMs addr nonce) ↔
      (mgr.validate c nowMs addr nonce = .stale ∨ ∃ inner, mgr.body nonce = some inner ∧
        nonceMacLen ≤ tagLength inner)) := by
  refine ⟨?_, verify_issueClientNonce, ?_⟩
  · cases hVerify : verifyClientNonce c serverKey client nonce with
    | none => simp
    | some tsMs =>
      constructor
      · intro hCarries
        exact .inr ((carriesTag_iff hVerify).mp (hCarries tsMs rfl))
      rintro (hNone | hLong) tsMs' ⟨⟩
      · cases hNone
      · exact (carriesTag_iff hVerify).mpr hLong
  · cases hStatus : mgr.validate c nowMs addr nonce with
    | stale => simp
    | valid =>
      constructor
      · intro hGenuine
        exact .inr ((NonceManager.genuine_iff hStatus).mp (hGenuine rfl))
      rintro (hStale | hLong) _
      · cases hStale
      · exact (NonceManager.genuine_iff hStatus).mpr hLong

end Turna.Relay
