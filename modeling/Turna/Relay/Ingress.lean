import Turna.Relay.Refreshing

/-! # All ways in

Besides the packet functions of the processor there are the NAT-discovery sockets, and the stream bridges, which
handle CONNECT and ConnectionBind themselves. Here each way in is followed up to its effects, and it is asked which
of them stop a banned source.
-/

namespace Turna.Stun.StunMessage

variable (msg : StunMessage)

def getChangeRequest : Option (Bool × Bool) := msg.attributes.findSome? fun
  | .changeRequest changeIp changePort => some (changeIp, changePort)
  | _ => none

def getConnectionId : Option UInt32 := msg.attributes.findSome? fun
  | .connectionId id => some id
  | _ => none

end Turna.Stun.StunMessage

namespace Turna.Relay
open Lib Net Crypto Stun Auth Session Transport Scenario Processor

/-! ## NAT discovery -/

structure NatDiscoveryTopology where
  primaryIp : IpAddr
  alternateIp : IpAddr
  primaryPort : UInt16
  alternatePort : UInt16

namespace NatDiscoveryTopology

variable (topology : NatDiscoveryTopology)

def otherIp (ip : IpAddr) : Option IpAddr :=
  if ip = topology.primaryIp then some topology.alternateIp
  else if ip = topology.alternateIp then some topology.primaryIp
  else none

def otherPort (port : UInt16) : Option UInt16 :=
  if port = topology.primaryPort then some topology.alternatePort
  else if port = topology.alternatePort then some topology.primaryPort
  else none

/-- The address a response is sent from; `local` has to be one of the four sockets. -/
def responseSource (local' : SocketAddr) (changeIp changePort : Bool) : Option SocketAddr := do
  let otherIp ← topology.otherIp local'.ip
  let otherPort ← topology.otherPort local'.port
  return .new (if changeIp then otherIp else local'.ip) (if changePort then otherPort else local'.port)

def otherAddress (local' : SocketAddr) : Option SocketAddr := do
  let otherIp ← topology.otherIp local'.ip
  let otherPort ← topology.otherPort local'.port
  return .new otherIp otherPort

end NatDiscoveryTopology

/-- 420 for attributes that are not understood, where CHANGE-REQUEST may be one that is. -/
def rejectUnknownAttributes (changeRequestOk : Bool) (msg : StunMessage) (dst : SocketAddr) : Option (List Action) :=
  let unknown := msg.attributes.filterMap fun
    | .unknown attrType _ =>
      if attrType < 0x8000 ∧ attrType ≠ attrMessageIntegritySha256 ∧ attrType ≠ attrPasswordAlgorithm
      then some attrType else none
    | .changeRequest _ _ => if changeRequestOk then none else some attrChangeRequest
    | _ => none
  if unknown = [] then none
  else
    let resp := (buildErrorResponse msg.method msg.transactionId 420 "Unknown Attribute").add
      (.unknownAttributes unknown)
    some (encodeOrDrop (resp.encode 512) dst)

def sentData (actions : List Action) : Option Bytes := actions.findSome? fun
  | .send data _ => some data
  | _ => none

namespace Processor

variable (p : Processor) (env : Surroundings)

def discoveryError (msg : StunMessage) (code : UInt16) (reason : String) (withNonce : Bool) : Option Bytes :=
  let resp := buildErrorResponse msg.method msg.transactionId code reason
  let resp := if withNonce then (resp.add (.realm env.auth.baseRealm)).add (.nonce env.freshNonce) else resp
  (resp.encode 512).toOption

def discoveryKey (msg : StunMessage) (raw : Bytes) (src : SocketAddr) : Except (Option Bytes) (Option Bytes) :=
  if msg.getMessageIntegrity.isNone && msg.getMessageIntegritySha256.isNone then .ok none
  else
    match msg.getNonce with
    | none => .error (discoveryError env msg 400 "Bad Request" false)
    | some nonce =>
      if !msg.hasUserIdentity || msg.getRealm.isNone then .error (discoveryError env msg 400 "Bad Request" false)
      else if !env.nonceValid src nonce then .error (discoveryError env msg 438 "Stale Nonce" true)
      else
        match env.auth.validateOpts env.authEnv msg raw with
        | .ok resolution => .ok (some resolution.key)
        | .error (.pending _) => .error none
        | .error .throttled => .error (discoveryError env msg 500 "Server Error" false)
        | .error .unavailable => .error (discoveryError env msg 500 "Server Error" false)
        | .error .badRequest => .error (discoveryError env msg 400 "Bad Request" false)
        | .error _ =>
          .error ((buildAuthChallenge msg.method msg.transactionId env.auth.baseRealm env.freshNonce).encode 512).toOption

def discoverySuccess (msg : StunMessage) (src local' : SocketAddr) (topology : NatDiscoveryTopology)
    (key : Option Bytes) : Option (Bytes × SocketAddr) := do
  let (changeIp, changePort) := msg.getChangeRequest.getD (false, false)
  let source ← topology.responseSource local' changeIp changePort
  let other ← topology.otherAddress local'
  let resp := ((((StunMessage.withTransactionId .binding .successResponse msg.transactionId).add
    (.xorMappedAddress src)).add (.mappedAddress src)).add (.responseOrigin source)).add (.otherAddress other)
  let resp := match p.settings.software with
    | some name => resp.add (.software name)
    | none => resp
  let data ← match key with
    | some key => (encodeWithIntegrityAuto env.authEnv.crypto resp 512 key msg).toOption
    | none => (resp.encode 512).toOption
  return (data, source)

/-- The verdict of the reply budget is the one of a Binding. -/
def handleNatDiscovery (raw : Bytes) (src local' : SocketAddr) (topology : NatDiscoveryTopology) :
    Option (Bytes × SocketAddr) :=
  if !isStunMessage raw then none
  else if !env.ingressOk then none
  else
    match StunMessage.decode raw with
    | .error _ => none
    | .ok msg =>
      if msg.cls ≠ .request ∨ msg.method ≠ .binding then none
      else if !env.bindingReplyOk then none
      else
        match rejectUnknownAttributes true msg src with
        | some actions => (sentData actions).map (fun data => (data, local'))
        | none =>
          match discoveryKey env msg raw src with
          | .error answer => answer.map (fun data => (data, local'))
          | .ok key => p.discoverySuccess env msg src local' topology key

/-! ## ConnectionBind -/

inductive ConnBindDecision where
  | reject (actions : List Action)
  | proceed (connectionId : UInt32) (key success : Bytes)
  deriving DecidableEq

def connectionBindDecision (msg : StunMessage) (raw : Bytes) (src : SocketAddr) : ConnBindDecision :=
  match authenticate env msg src raw with
  | .error actions => .reject actions
  | .ok auth =>
    match msg.getConnectionId with
    | none => .reject (encodeError msg src 400 "Bad Request")
    | some connectionId =>
      match encodeWithIntegrityAuto env.authEnv.crypto (buildSuccessResponse .connectionBind msg.transactionId) 256
          auth.key msg with
      | .ok success => .proceed connectionId auth.key success
      | .error _ => .reject (encodeError msg src 500 "Server Error")

end Processor

/-! ## Effects -/

inductive RelayCall where
  | connect (peer : SocketAddr) (relayPort : UInt16)
  | claim (connectionId : UInt32)

/-- `consulted` tells whether the packet gets as far as a limiter or the credentials. -/
structure IngressEffect where
  actions : List Action
  reply : Option (Bytes × SocketAddr)
  relay : Option RelayCall
  consulted : Bool
  processor : Processor

inductive Ingress where
  | datagram (raw : Bytes)
  | slice (raw : Bytes)
  | tcpControl (raw : Bytes)
  | owned (raw : Bytes)
  | natDiscovery (raw : Bytes) (local' : SocketAddr) (topology : NatDiscoveryTopology)
  /-- A message on a TCP or TLS connection, with the engine for relayed connections or without. -/
  | stream (raw : Bytes) (tcpRelay : Bool)

def outOfBand (raw : Bytes) : Option StunMessage :=
  match StunMessage.decode raw with
  | .ok msg => if msg.cls = .request ∧ (msg.method = .connect ∨ msg.method = .connectionBind) then some msg else none
  | .error _ => none

namespace Processor

variable (p : Processor) (env : Surroundings)

def gatedEffect (raw : Bytes) (result : List Action × Processor) : IngressEffect where
  actions := result.1
  reply := none
  relay := none
  consulted := !env.banned && (isChannelData raw || isStunMessage raw)
  processor := result.2

def connectEffect (msg : StunMessage) (raw : Bytes) (src : SocketAddr) : IngressEffect :=
  match p.connectDecision env msg raw src with
  | .reject actions => ⟨actions, none, none, true, p⟩
  | .proceed peer _ relayPort => ⟨[], none, some (.connect peer relayPort), true, p⟩

def connectionBindEffect (msg : StunMessage) (raw : Bytes) (src : SocketAddr) : IngressEffect :=
  match connectionBindDecision env msg raw src with
  | .reject actions => ⟨actions, none, none, true, p⟩
  | .proceed connectionId _ _ => ⟨[], none, some (.claim connectionId), true, p⟩

def deliver (src : SocketAddr) : Ingress → IngressEffect
  | .datagram raw => gatedEffect env raw (p.process env raw src)
  | .slice raw => gatedEffect env raw (p.processSlice env raw src)
  | .tcpControl raw => gatedEffect env raw (p.processTcpControl env raw src)
  | .owned raw => gatedEffect env raw (p.processImpl env raw src false)
  | .natDiscovery raw local' topology =>
    ⟨[], p.handleNatDiscovery env raw src local' topology, none, isStunMessage raw, p⟩
  | .stream raw tcpRelay =>
    match if tcpRelay then outOfBand raw else none with
    | some msg =>
      if msg.method = .connect then p.connectEffect env msg raw src else p.connectionBindEffect env msg raw src
    | none => gatedEffect env raw (p.processTcpControl env raw src)

end Processor

structure Quiet (p : Processor) (effect : IngressEffect) : Prop where
  actions : ∀ action ∈ effect.actions, action = .none
  reply : effect.reply = none
  relay : effect.relay.isNone = true
  consulted : effect.consulted = false
  processor : effect.processor = p

def Ingress.gated : Ingress → Bool
  | .natDiscovery raw _ _ => !isStunMessage raw
  | .stream raw tcpRelay => !(tcpRelay && (outOfBand raw).isSome)
  | _ => true

section Bans

variable {p : Processor} {env : Surroundings} {src : SocketAddr}

theorem processImpl_banned (h : env.banned = true) (raw : Bytes) (ingressTcp : Bool) :
    p.processImpl env raw src ingressTcp = ([.none], p) := by
  rw [processImpl, if_pos h]

theorem processSlice_banned (h : env.banned = true) (raw : Bytes) : p.processSlice env raw src = ([.none], p) := by
  rw [processSlice, process, processImpl_banned h, if_pos h, ite_self]

theorem quiet_gatedEffect (h : env.banned = true) {raw : Bytes} {result : List Action × Processor}
    (hResult : result = ([.none], p)) : Quiet p (gatedEffect env raw result) := by
  subst hResult
  refine ⟨fun action hIn => List.mem_singleton.mp hIn, rfl, rfl, ?_, rfl⟩
  rw [gatedEffect, h]
  rfl

theorem quiet_of_gated {way : Ingress} (hGated : way.gated = true) (h : env.banned = true) :
    Quiet p (p.deliver env src way) := by
  cases way with
  | datagram raw | owned raw => exact quiet_gatedEffect h (processImpl_banned h raw false)
  | slice raw => exact quiet_gatedEffect h (processSlice_banned h raw)
  | tcpControl raw => exact quiet_gatedEffect h (processImpl_banned h raw true)
  | natDiscovery raw local' topology =>
    have hNoise : isStunMessage raw = false := by simpa [Ingress.gated] using hGated
    refine ⟨fun action hIn => absurd hIn (List.not_mem_nil), ?_, rfl, hNoise, rfl⟩
    rw [deliver, handleNatDiscovery, hNoise]
    rfl
  | stream raw tcpRelay =>
    have hNone : (if tcpRelay then outOfBand raw else none) = none := by
      cases tcpRelay with
      | false => rfl
      | true => simpa [Ingress.gated] using hGated
    rw [deliver, hNone]
    exact quiet_gatedEffect h (processImpl_banned h raw true)

def bannedSurroundings : Surroundings :=
  { Scenario.surroundings Scenario.longTerm 0 with banned := true, nonceValid := fun _ _ => false }

theorem exists_encode {msg : StunMessage} {room size : Nat} (hPlain : msg.attributes.all Attribute.isPlain = true)
    (hSize : attrsSize msg.transactionId msg.attributes = size) (hScratch : size ≤ StunMessage.attrScratch)
    (hRoom : headerSize + size ≤ room) : ∃ data, msg.encode room = .ok data :=
  ⟨_, (StunMessage.encode_eq_ok hPlain).mpr ⟨hSize ▸ hScratch, hSize ▸ hRoom, rfl⟩⟩

theorem authenticate_answers (msg : StunMessage) (src : SocketAddr) (raw : Bytes) :
    ∃ data, authenticate bannedSurroundings msg src raw = .error [.send data src] := by
  obtain ⟨challenge, hChallenge⟩ := @exists_encode (buildAuthChallenge msg.method msg.transactionId "r" "n") 512 48 rfl
    (by with_unfolding_all rfl) (by decide) (by decide)
  have hChallenges : encodeAuthChallenge bannedSurroundings msg src = [.send challenge src] := by
    change encodeOrDrop ((buildAuthChallenge msg.method msg.transactionId "r" "n").encode 512) src = _
    rw [hChallenge]
    rfl
  obtain ⟨stale, hStale⟩ := @exists_encode (((buildErrorResponse msg.method msg.transactionId 438 "Stale Nonce").add
    (.realm "r")).add (.nonce "n")) 512 36 rfl (by with_unfolding_all rfl) (by decide) (by decide)
  have hStales : encodeStaleNonce bannedSurroundings msg src = [.send stale src] := by
    change encodeOrDrop ((((buildErrorResponse msg.method msg.transactionId 438 "Stale Nonce").add
      (.realm "r")).add (.nonce "n")).encode 512) src = _
    rw [hStale]
    rfl
  rw [authenticate, validateNonce, hChallenges, hStales]
  split
  · exact ⟨_, rfl⟩
  cases msg.getNonce with
  | none | some nonce => exact ⟨_, rfl⟩

theorem deliver_answers {raw : Bytes} {msg : StunMessage} (h : outOfBand raw = some msg) (src : SocketAddr) :
    ∃ data, (server.deliver bannedSurroundings src (.stream raw true)).actions = [.send data src] := by
  obtain ⟨data, hAnswer⟩ := authenticate_answers msg src raw
  refine ⟨data, ?_⟩
  rw [deliver, if_pos rfl, h]
  dsimp only
  split
  · rw [connectEffect, connectDecision, hAnswer]
  · rw [connectionBindEffect, connectionBindDecision, hAnswer]

def bareRequest (type : UInt8) : Bytes := [0, type, 0, 0, 0x21, 0x12, 0xa4, 0x42] ++ List.replicate 12 0

def discoverySockets : NatDiscoveryTopology := ⟨.v4 ⟨203, 0, 113, 1⟩, .v4 ⟨203, 0, 113, 2⟩, 3478, 3479⟩

/-- A banned source gets a challenge to its CONNECT and an answer from a discovery socket. -/
theorem banned_source_answered : bannedSurroundings.banned = true ∧
    (∃ data, (server.deliver bannedSurroundings (client 1) (.stream (bareRequest 0x0a) true)).actions =
      [.send data (client 1)]) ∧
    (server.deliver bannedSurroundings (client 1)
      (.natDiscovery (bareRequest 0x01) (.v4 ⟨203, 0, 113, 1⟩ 3478) discoverySockets)).reply.isSome = true := by
  refine ⟨rfl, ?_, by decide +kernel⟩
  obtain ⟨msg, hBand⟩ : ∃ msg, outOfBand (bareRequest 0x0a) = some msg :=
    Option.isSome_iff_exists.mp (by decide +kernel)
  exact deliver_answers hBand (client 1)

/-- Through the ways in without a ban check a banned source reaches a limiter or the credentials. -/
theorem ban_covers_iff (src : SocketAddr) (way : Ingress) :
    ((∀ (p : Processor) (env : Surroundings), env.banned = true → Quiet p (p.deliver env src way)) ↔
      way.gated = true) ∧
    ∀ raw msg, way = .stream raw true → outOfBand raw = some msg → ∃ (p : Processor) (env : Surroundings) (data : Bytes),
      env.banned = true ∧ (p.deliver env src way).actions = [.send data src] := by
  refine ⟨⟨fun h => ?_, fun hGated p env hBanned => quiet_of_gated hGated hBanned⟩, fun raw msg hWay hBand => ?_⟩
  · have hQuiet := h server bannedSurroundings rfl
    cases way with
    | natDiscovery raw local' topology =>
      rw [Ingress.gated, show isStunMessage raw = false from hQuiet.consulted]
      rfl
    | stream raw tcpRelay =>
      rw [Ingress.gated, Bool.not_eq_true', Bool.and_eq_false_iff]
      cases tcpRelay with
      | false => exact .inl rfl
      | true =>
        refine .inr ?_
        cases hBand : outOfBand raw with
        | none => rfl
        | some msg =>
          obtain ⟨data, hSent⟩ := deliver_answers hBand src
          have hNone := hQuiet.actions (.send data src) (by rw [hSent]; exact List.mem_singleton_self _)
          cases hNone
    | _ => rfl
  · subst hWay
    obtain ⟨data, hSent⟩ := deliver_answers hBand src
    exact ⟨server, bannedSurroundings, data, rfl, hSent⟩

end Bans

end Turna.Relay
