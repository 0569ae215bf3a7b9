import Turna.Relay.Ingress
import Turna.Relay.Lineage

/-! # The registries of stream connections

A stream listener keeps the connections that are open and, by the address of the client, the writer of each. Both are
compared here with the connections that the transport has reported as opened and not yet ended.
-/

namespace Turna.Relay
open Lib Net Crypto Stun Auth Session Transport Processor HashMap List Option Scenario Function

inductive StreamKind where
  | tls
  | plain
  deriving DecidableEq

inductive ClientTransport where
  | udp
  | stream (kind : StreamKind)
  deriving DecidableEq

/-- A connection of one of the two stream listeners, which count their connections separately. -/
structure Connection where
  kind : StreamKind
  connId : Nat
  deriving DecidableEq

/-- `live` also holds the address that a connection was accepted from, which comes with each of its events. -/
structure Hub where
  processor : Processor
  clientSinks : HashMap SocketAddr Connection
  live : HashMap Connection SocketAddr

inductive Write where
  | datagram (data : Bytes) (target : SocketAddr)
  | frame (data : Bytes) (connection : Connection)
  deriving DecidableEq

def Write.transport : Write → ClientTransport
  | .datagram _ _ => .udp
  | .frame _ connection => .stream connection.kind

def NodeStep.isInternal : NodeStep → Bool
  | .cleanupExpired _ _ _ => true
  | .deleteAllocation _ _ => true
  | .removeUser _ _ => true
  | .bulkLoad _ _ => true
  | .adopt _ _ _ => true
  | .publish _ _ => true
  | .usageSink _ => true
  | _ => false

def NodeStep.restores : NodeStep → List SocketAddr
  | .bulkLoad _ rows => rows.map fun row => row.2.clientAddr
  | .adopt _ _ row => [row.clientAddr]
  | _ => []

inductive HubEvent where
  | datagram (env : Surroundings) (raw : Bytes) (src : SocketAddr)
  | connectionOpened (connection : Connection) (peerAddr : SocketAddr)
  | packetReceived (env : Surroundings) (connection : Connection) (raw : Bytes) (tcpRelay : Bool)
  | connectionClosed (env : Surroundings) (connection : Connection)
  /-- A connection became a data connection. Its close is not reported. -/
  | detached (connection : Connection)
  | relayed (env : Surroundings) (data : Bytes) (peerAddr relayAddr : SocketAddr)
  | internal (step : NodeStep) (hInternal : step.isInternal = true) (createdOver : SocketAddr → ClientTransport)

namespace Hub

variable (hub : Hub)

def start (p : Processor) : Hub := ⟨p, .empty, .empty⟩

def sendDatagrams (actions : List Action) : List Write := actions.filterMap fun
  | .send data target => some (.datagram data target)
  | _ => none

/-- On the connection itself, or on the stream registered for the target. -/
def sendFrames (connection : Connection) (peerAddr : SocketAddr) (actions : List Action) : List Write :=
  actions.filterMap fun
    | .send data target =>
      if target = peerAddr then some (.frame data connection)
      else (hub.clientSinks.get target).map (.frame data)
    | _ => none

/-- The stream registered for the target, or the datagram socket. -/
def route (target : SocketAddr) (data : Bytes) : Write :=
  match hub.clientSinks.get target with
  | some connection => .frame data connection
  | none => .datagram data target

def sendBack (actions : List Action) : List Write := actions.filterMap fun
  | .send data target => some (hub.route target data)
  | _ => none

def step : HubEvent → List Write × Hub
  | .datagram env raw src =>
    let (actions, p) := hub.processor.process env raw src
    (sendDatagrams actions, { hub with processor := p })
  | .connectionOpened connection peerAddr =>
    ([], { hub with
      live := hub.live.insert connection peerAddr
      clientSinks := hub.clientSinks.insert peerAddr connection })
  | .packetReceived env connection raw tcpRelay =>
    match hub.live.get connection with
    | none => ([], hub)
    | some peerAddr =>
      let effect := hub.processor.deliver env peerAddr (.stream raw tcpRelay)
      (hub.sendFrames connection peerAddr effect.actions, { hub with processor := effect.processor })
  | .connectionClosed env connection =>
    match hub.live.get connection with
    | none => ([], hub)
    | some peerAddr =>
      ([], {
        processor := (hub.processor.releaseForClosedConnection env peerAddr).2
        live := hub.live.remove connection
        clientSinks := hub.clientSinks.remove peerAddr })
  | .detached connection => ([], { hub with live := hub.live.remove connection })
  | .relayed env data peerAddr relayAddr =>
    let (actions, p) := hub.processor.processRelayRecv env data peerAddr relayAddr
    (hub.sendBack actions, { hub with processor := p })
  | .internal step _ _ => ([], { hub with processor := step.apply hub.processor })

end Hub

/-! ## Whose allocations an event concerns -/

namespace Processor

variable (p : Processor) (env : Surroundings)

def ticketAddr (raw : Bytes) (src : SocketAddr) : Option SocketAddr := do
  let msg ← refreshMessage raw
  let mgr ← p.settings.migration
  let ticket ← msg.getMobilityTicket
  if (p.store.get src).isSome then none
  else
    let (allocId, _) ← mgr.verifyTicket env.authEnv.crypto env.unixSecs ticket
    p.store.getById allocId

end Processor

namespace HubEvent

/-- For a packet from a peer, the transport that it is to be delivered on. -/
def transport (hub : Hub) : HubEvent → Option ClientTransport
  | .datagram _ _ _ => some .udp
  | .connectionOpened connection _ => some (.stream connection.kind)
  | .packetReceived _ connection _ _ => some (.stream connection.kind)
  | .connectionClosed _ connection => some (.stream connection.kind)
  | .detached connection => some (.stream connection.kind)
  | .relayed _ data _ relayAddr => (hub.processor.store.getByRelay relayAddr).map fun c => (hub.route c data).transport
  | .internal _ _ _ => none

def lookups (hub : Hub) : HubEvent → List SocketAddr
  | .datagram env raw src => src :: (hub.processor.ticketAddr env raw src).toList
  | .packetReceived env connection raw _ =>
    match hub.live.get connection with
    | none => []
    | some peerAddr => peerAddr :: (hub.processor.ticketAddr env raw peerAddr).toList
  | .connectionClosed _ connection => (hub.live.get connection).toList
  | .relayed _ _ _ relayAddr => (hub.processor.store.getByRelay relayAddr).toList
  | .connectionOpened _ _ => []
  | .detached _ => []
  | .internal _ _ _ => []

end HubEvent

/-- A hub with the transport that the allocation at each address was created over. -/
structure Tracked where
  hub : Hub
  createdOver : SocketAddr → ClientTransport

namespace Tracked

variable (t : Tracked)

/-- An allocation at an address that had none was created by this packet, or moved there by it. -/
def afterPacket (transport : ClientTransport) (env : Surroundings) (raw : Bytes) (src : SocketAddr) :
    SocketAddr → ClientTransport :=
  if (t.hub.processor.store.get src).isSome then t.createdOver
  else Function.update t.createdOver src
    (((t.hub.processor.movesFrom env raw src).map t.createdOver).getD transport)

def createdAfter : HubEvent → SocketAddr → ClientTransport
  | .datagram env raw src => t.afterPacket .udp env raw src
  | .packetReceived env connection raw _ =>
    match t.hub.live.get connection with
    | none => t.createdOver
    | some peerAddr => t.afterPacket (.stream connection.kind) env raw peerAddr
  | .internal _ _ createdOver => fun c =>
    if (t.hub.processor.store.get c).isSome then t.createdOver c else createdOver c
  | .connectionOpened _ _ => t.createdOver
  | .connectionClosed _ _ => t.createdOver
  | .detached _ => t.createdOver
  | .relayed _ _ _ _ => t.createdOver

def apply (event : HubEvent) : Tracked := ⟨(t.hub.step event).2, t.createdAfter event⟩

end Tracked

/-- An event on a transport reads, changes, removes and answers only what was created over it. -/
structure Separated (t : Tracked) (event : HubEvent) : Prop where
  reads : ∀ transport, event.transport t.hub = some transport → ∀ c ∈ event.lookups t.hub,
    (t.hub.processor.store.get c).isSome → t.createdOver c = transport
  keeps : ∀ transport, event.transport t.hub = some transport → ∀ c a, t.hub.processor.store.get c = some a →
    t.createdOver c ≠ transport → (t.hub.step event).2.processor.store.get c = some a
  writes : ∀ transport, event.transport t.hub = some transport → ∀ w ∈ (t.hub.step event).1, w.transport = transport

/-! ## What the steps leave alone -/

section Steps

variable {p p' : Processor} {env : Surroundings} {raw : Bytes} {src c : SocketAddr} {es : List TableEvent}
  {actions : List Action}

theorem movesFrom_spec (hVacant : p.store.get src = none) (h : p.movesFrom env raw src = some c) :
    p.ticketAddr env raw src = some c ∧ ∃ a, p.store.get c = some a := by
  rw [movesFrom] at h
  obtain ⟨msg, hMessage, hTarget⟩ := bind_eq_some_iff.mp h
  rw [refreshTarget, hVacant] at hTarget
  dsimp only at hTarget
  split at hTarget
  · next mgr ticket hManager hTicket =>
    split at hTarget
    · cases hTarget
    obtain ⟨⟨oldAddr, allocId, epoch⟩, hSome, rfl⟩ := map_eq_some_iff.mp hTarget
    obtain ⟨hVerified, hId, a, hGet, -⟩ := ticketTarget_spec hSome
    refine ⟨?_, a, hGet⟩
    rw [ticketAddr, hMessage, hManager]
    simp only [bind_eq_bind, bind_some, hTicket, hVacant, isSome_none, Bool.false_eq_true, if_false, hVerified, hId]
  · cases hTarget

theorem processRelayRecv_spec {data : Bytes} {peerAddr relayAddr : SocketAddr} :
    p.processRelayRecv env data peerAddr relayAddr = ([.none], p) ∨
      ∃ c a frame, p.store.getByRelay relayAddr = some c ∧ p.store.get c = some a ∧
        p.processRelayRecv env data peerAddr relayAddr = (encodeOrDrop frame a.clientAddr,
          { p with store := p.store.meter c (a.addBytesToClient data.length) }) := by
  rw [processRelayRecv]
  split
  · exact .inl rfl
  next c hIndex =>
  split
  · exact .inl rfl
  next a hGet =>
  split
  · exact .inl rfl
  split
  · exact .inl rfl
  split
  · exact .inl rfl
  split
  · exact .inl rfl
  · exact .inr ⟨c, a, _, hIndex, hGet, rfl⟩

theorem get_meter_other (s : AllocationStore) {a : Allocation} (hNe : c ≠ src) : (s.meter src a).get c = s.get c :=
  get_insert_ne _ _ hNe

theorem get_release :
    (p.releaseForClosedConnection env src).2.store.get c = if c = src then none else p.store.get c := by
  rw [releaseForClosedConnection]
  cases hGet : p.store.get src with
  | none =>
    dsimp only
    split
    · next hEq => exact hEq ▸ hGet
    · rfl
  | some a =>
    obtain ⟨reason, hStep⟩ := refresh_closed p.store env.order env.clock hGet
    rw [show p.store.refresh env.order env.clock src 0 = (.ok (), (p.store.refresh env.order env.clock src 0).2)
      from Prod.ext (refresh_some env.order env.clock hGet 0).1 rfl]
    cases hStep with
    | closed _ hAllocations =>
      rw [AllocationStore.get, hAllocations, get_remove]
      rfl

variable {msg : StunMessage} {step : NodeStep}

theorem packet_of_internal (h : step.isInternal = true) : step.packet? = none := by
  cases step <;> first | rfl | cases h

theorem StepOutcome.vacant (h : StepOutcome p step es actions p')
    (hInternal : step.isInternal = true) (hVacant : p.store.get c = none) (hNot : c ∉ step.restores) :
    p'.store.get c = none := by
  refine h.run.vacant_at hVacant fun e he => ?_
  cases h with
  | packet hPacket =>
    rw [packet_of_internal hInternal] at hPacket
    cases hPacket
  | delivered hStep | migrated hStep =>
    subst hStep
    cases hInternal
  | tended _ _ hTended =>
    obtain hClosed | rfl | ⟨c', rfl, -⟩ := hTended e he
    · cases e <;> first | exact .inl rfl | cases hClosed
    · exact .inl rfl
    · exact .inl rfl
  | loaded hStep _ hLoaded =>
    subst hStep
    obtain rfl | ⟨row, hRow, s, rfl⟩ := hLoaded e he
    · exact .inl rfl
    · refine .inr (decide_eq_false fun hEq => hNot ?_)
      exact mem_map.mpr ⟨row, hRow, hEq⟩
  | adopted hStep =>
    subst hStep
    cases mem_singleton.mp he
    exact .inr (decide_eq_false fun hEq => hNot (mem_singleton.mpr hEq.symm))
  | drained =>
    cases mem_singleton.mp he
    exact .inl rfl

theorem outcome_stream (tcpRelay : Bool) :
    ∃ es actions, PacketOutcome p env raw src es actions (p.deliver env src (.stream raw tcpRelay)).processor := by
  have hSame : ∃ es actions, PacketOutcome p env raw src es actions p := ⟨_, [], .idle (.refl _) rfl nofun⟩
  rw [deliver]
  split
  · split
    · unfold connectEffect
      split <;> exact hSame
    · unfold connectionBindEffect
      split <;> exact hSame
  · obtain ⟨-, es, hOutcome⟩ := @outcome_processImpl p env raw src true
    exact ⟨es, _, hOutcome⟩

theorem answer_connectDecision {actions : List Action}
    (h : p.connectDecision env msg raw src = .reject actions) : Answer src actions := by
  rw [connectDecision] at h
  split at h
  · next hAuth =>
    cases h
    exact (refused_authenticate hAuth).toAnswer
  split at h
  · cases h
    exact answer_encodeError _ _
  split at h
  · cases h
    exact answer_encodeError _ _
  split at h
  · cases h
    exact answer_encodeError _ _
  split at h
  · cases h
    exact answer_encodeError _ _
  · cases h

theorem answer_connectionBindDecision {actions : List Action}
    (h : connectionBindDecision env msg raw src = .reject actions) : Answer src actions := by
  rw [connectionBindDecision] at h
  split at h
  · next hAuth =>
    cases h
    exact (refused_authenticate hAuth).toAnswer
  split at h
  · cases h
    exact answer_encodeError _ _
  split at h
  · cases h
  · cases h
    exact answer_encodeError _ _

theorem repliesTo_stream (tcpRelay : Bool) : RepliesTo src (p.deliver env src (.stream raw tcpRelay)).actions := by
  rw [deliver]
  split
  · split
    · unfold connectEffect
      split
      · next hDecision => exact (answer_connectDecision hDecision).repliesTo
      · exact silent_nil.repliesTo src
    · unfold connectionBindEffect
      split
      · next hDecision => exact (answer_connectionBindDecision hDecision).repliesTo
      · exact silent_nil.repliesTo src
  · exact (outcome_processImpl true).1

end Steps

/-! ## Addresses with one transport -/

/-- Addresses belong to transports, tickets are presented on the transport of their address, a connection is accepted
only when earlier ones from its address are gone, and restored allocations are of datagram clients. -/
def HubEvent.OneTransport (made : SocketAddr → ClientTransport) (hub : Hub) : HubEvent → Prop
  | .datagram env raw src => made src = .udp ∧ ∀ c, hub.processor.ticketAddr env raw src = some c → made c = .udp
  | .connectionOpened connection peerAddr =>
    made peerAddr = .stream connection.kind ∧ ∀ other, hub.live.get other ≠ some peerAddr
  | .packetReceived env connection raw _ => ∀ peerAddr, hub.live.get connection = some peerAddr →
    ∀ c, hub.processor.ticketAddr env raw peerAddr = some c → made c = .stream connection.kind
  | .internal step _ createdOver => ∀ c ∈ step.restores, made c = .udp ∧ createdOver c = .udp
  | _ => True

structure Consistent (made : SocketAddr → ClientTransport) (t : Tracked) : Prop where
  keyed : ClientKeyed t.hub.processor.store
  created : ∀ c a, t.hub.processor.store.get c = some a → t.createdOver c = made c
  sinks : ∀ c connection, t.hub.clientSinks.get c = some connection → made c = .stream connection.kind
  connected : ∀ c a kind, t.hub.processor.store.get c = some a → made c = .stream kind →
    (t.hub.clientSinks.get c).isSome
  live : ∀ connection c, t.hub.live.get connection = some c → t.hub.clientSinks.get c = some connection

section Invariant

variable {made : SocketAddr → ClientTransport} {t : Tracked} {transport : ClientTransport} {env : Surroundings}
  {raw : Bytes} {src : SocketAddr} {es : List TableEvent} {actions : List Action} {p' : Processor}

theorem Consistent.start {p : Processor} (h : p.store.allocations = .empty)
    (createdOver : SocketAddr → ClientTransport) : Consistent made ⟨.start p, createdOver⟩ := by
  have hVacant : ∀ c, p.store.get c = none := fun c => by rw [AllocationStore.get, h, get_empty]
  refine ⟨fun c a hGet => ?_, fun c a hGet => ?_, by rintro _ _ ⟨⟩, fun c a kind hGet => ?_, by rintro _ _ ⟨⟩⟩
  all_goals cases (hVacant c).symm.trans hGet

section

variable (h : Consistent made t)
include h

section

variable (hOver : made src = transport)
  (hTicket : ∀ c, t.hub.processor.ticketAddr env raw src = some c → made c = transport)
include hOver hTicket

theorem Consistent.packet (hSink : ∀ kind, transport = .stream kind → (t.hub.clientSinks.get src).isSome)
    (hOutcome : PacketOutcome t.hub.processor env raw src es actions p') :
    Consistent made ⟨{ t.hub with processor := p' }, t.afterPacket transport env raw src⟩ := by
  have hElsewhere : ∀ c a, c ≠ src → p'.store.get c = some a → t.hub.processor.store.get c = some a := by
    intro c a hNe hGet
    obtain hSame | ⟨hGone, -⟩ := hOutcome.elsewhere hNe
    · exact hSame ▸ hGet
    · rw [hGone] at hGet
      cases hGet
  refine ⟨hOutcome.run.invariant ClientKeyed (fun _ _ _ hStep hKeyed => hKeyed.step hStep) h.keyed, ?_, h.sinks, ?_,
    h.live⟩
  · intro c a hGet
    show t.afterPacket transport env raw src c = made c
    rw [Tracked.afterPacket]
    by_cases hSrc : c = src
    · subst hSrc
      cases hBefore : t.hub.processor.store.get c with
      | some b => exact h.created c b hBefore
      | none =>
        rw [if_neg (by simp), update_self]
        cases hMoves : t.hub.processor.movesFrom env raw c with
        | none => exact hOver.symm
        | some old =>
          -- a moved allocation keeps its transport, which is that of the ticket's address
          obtain ⟨hLookup, b, hOld⟩ := movesFrom_spec hBefore hMoves
          exact (h.created old b hOld).trans ((hTicket old hLookup).trans hOver.symm)
    · have hBefore := h.created c a (hElsewhere c a hSrc hGet)
      split
      · exact hBefore
      · rw [update_of_ne hSrc]
        exact hBefore
  · intro c a kind hGet hKind
    by_cases hSrc : c = src
    · subst hSrc
      exact hSink kind (hOver.symm.trans hKind)
    · exact h.connected c a kind (hElsewhere c a hSrc hGet) hKind

theorem Consistent.keeps_packet (hOutcome : PacketOutcome t.hub.processor env raw src es actions p') {c : SocketAddr} {a : Allocation}
    (hGet : t.hub.processor.store.get c = some a) (hOther : t.createdOver c ≠ transport) : p'.store.get c = some a := by
  rw [h.created c a hGet] at hOther
  have hNe : c ≠ src := by
    rintro rfl
    exact hOther hOver
  obtain hSame | ⟨-, hVacant, hMoves⟩ := hOutcome.elsewhere hNe
  · exact hSame.trans hGet
  · exact absurd (hTicket c (movesFrom_spec hVacant hMoves).1) hOther

theorem Consistent.reads_packet {c : SocketAddr}
    (hIn : c ∈ src :: (t.hub.processor.ticketAddr env raw src).toList)
    (hThere : (t.hub.processor.store.get c).isSome) : t.createdOver c = transport := by
  obtain ⟨a, hGet⟩ := isSome_iff_exists.mp hThere
  rw [h.created c a hGet]
  obtain rfl | hLooked := mem_cons.mp hIn
  · exact hOver
  · exact hTicket c (mem_toList.mp hLooked)

end

theorem Consistent.route {c : SocketAddr} {a : Allocation}
    (hGet : t.hub.processor.store.get c = some a) (data : Bytes) : (t.hub.route c data).transport = made c := by
  rw [Hub.route]
  cases hSink : t.hub.clientSinks.get c with
  | some connection => exact (h.sinks c connection hSink).symm
  | none =>
    cases hOver : made c with
    | udp => rfl
    | stream kind =>
      have hThere := h.connected c a kind hGet hOver
      rw [hSink] at hThere
      cases hThere

variable {createdOver : SocketAddr → ClientTransport} {connection : Connection}

theorem Consistent.opened {peerAddr : SocketAddr}
    (hOver : made peerAddr = .stream connection.kind) (hAlone : ∀ other, t.hub.live.get other ≠ some peerAddr) :
    Consistent made (t.apply (.connectionOpened connection peerAddr)) := by
  have hSinks : (t.apply (.connectionOpened connection peerAddr)).hub.clientSinks =
      t.hub.clientSinks.insert peerAddr connection := rfl
  have hLives : (t.apply (.connectionOpened connection peerAddr)).hub.live =
      t.hub.live.insert connection peerAddr := rfl
  refine ⟨h.keyed, h.created, fun c other hSink => ?_, fun c a kind hGet hKind => ?_, fun other c hLive => ?_⟩
  · obtain ⟨rfl, rfl⟩ | hOld := get_insert_cases hSink
    · exact hOver
    · exact h.sinks c other hOld
  · rw [hSinks, get_insert]
    split
    · rfl
    · exact h.connected c a kind hGet hKind
  · rw [hLives, get_insert] at hLive
    rw [hSinks]
    split at hLive
    · next hEq =>
      cases hLive
      rw [get_insert_self, hEq]
    have hNe : c ≠ peerAddr := fun hEq => hAlone other (hEq ▸ hLive)
    rw [get_insert_ne _ _ hNe]
    exact h.live other c hLive

theorem Consistent.closed (env : Surroundings) (connection : Connection) :
    Consistent made (t.apply (.connectionClosed env connection)) := by
  rw [Tracked.apply, Hub.step, Tracked.createdAfter]
  cases hLive : t.hub.live.get connection with
  | none => exact h
  | some peerAddr =>
    have hLeft : ∀ c a, (t.hub.processor.releaseForClosedConnection env peerAddr).2.store.get c = some a →
        c ≠ peerAddr ∧ t.hub.processor.store.get c = some a := by
      intro c a hGet
      rw [get_release] at hGet
      split at hGet
      · cases hGet
      · next hNe => exact ⟨hNe, hGet⟩
    refine ⟨fun c a hGet => h.keyed c a (hLeft c a hGet).2, fun c a hGet => h.created c a (hLeft c a hGet).2,
      ?_, ?_, ?_⟩
    · intro c other hSink
      exact h.sinks c other (get_of_get_remove hSink)
    · intro c a kind hGet hKind
      obtain ⟨hNe, hBefore⟩ := hLeft c a hGet
      rw [get_remove_ne _ hNe]
      exact h.connected c a kind hBefore hKind
    · intro other c hOther
      rw [get_remove] at hOther
      split at hOther
      · cases hOther
      next hNe =>
      have hSink := h.live other c hOther
      have hAway : c ≠ peerAddr := by
        rintro rfl
        rw [h.live connection c hLive] at hSink
        cases hSink
        exact hNe rfl
      rw [get_remove_ne _ hAway]
      exact hSink

theorem Consistent.detached (connection : Connection) : Consistent made (t.apply (.detached connection)) := by
  refine ⟨h.keyed, h.created, h.sinks, h.connected, fun other c hLive => ?_⟩
  rw [show (t.apply (.detached connection)).hub.live = t.hub.live.remove connection from rfl, get_remove] at hLive
  split at hLive
  · cases hLive
  · exact h.live other c hLive

theorem Consistent.processor {p' : Processor}
    (hKeyed : ClientKeyed p'.store) (hBefore : ∀ c a', p'.store.get c = some a' →
      (∃ a, t.hub.processor.store.get c = some a ∧ createdOver c = t.createdOver c) ∨
        (made c = .udp ∧ createdOver c = .udp)) : Consistent made ⟨{ t.hub with processor := p' }, createdOver⟩ := by
  refine ⟨hKeyed, fun c a' hGet => ?_, h.sinks, fun c a' kind hGet hKind => ?_, h.live⟩
  · obtain ⟨a, hThere, hSame⟩ | ⟨hOver, hNew⟩ := hBefore c a' hGet
    · exact hSame.trans (h.created c a hThere)
    · exact hNew.trans hOver.symm
  obtain ⟨a, hThere, -⟩ | ⟨hOver, -⟩ := hBefore c a' hGet
  · exact h.connected c a kind hThere hKind
  · rw [hOver] at hKind
    cases hKind

theorem Consistent.relayed (env : Surroundings) (data : Bytes)
    (peerAddr relayAddr : SocketAddr) : Consistent made (t.apply (.relayed env data peerAddr relayAddr)) := by
  obtain ⟨es, hOutcome⟩ := outcome_processRelayRecv t.hub.processor env data peerAddr relayAddr
  refine h.processor (hOutcome.run.invariant ClientKeyed (fun _ _ _ hStep hKeyed => hKeyed.step hStep) h.keyed) ?_
  intro c a' hGet
  replace hGet : (t.hub.processor.processRelayRecv env data peerAddr relayAddr).2.store.get c = some a' := hGet
  refine .inl ?_
  cases hThere : t.hub.processor.store.get c with
  | some a => exact ⟨a, rfl, rfl⟩
  | none =>
    obtain hSame | ⟨c', a, frame, -, hFound, hEq⟩ := @processRelayRecv_spec t.hub.processor env data peerAddr relayAddr
    · rw [hSame, hThere] at hGet
      cases hGet
    have hNe : c ≠ c' := by
      rintro rfl
      rw [hThere] at hFound
      cases hFound
    rw [hEq, get_meter_other _ hNe, hThere] at hGet
    cases hGet

theorem Consistent.internal {step : NodeStep} (hInternal : step.isInternal = true)
    (hRows : ∀ c ∈ step.restores, made c = .udp ∧ createdOver c = .udp) :
    Consistent made (t.apply (.internal step hInternal createdOver)) := by
  obtain ⟨es, hOutcome⟩ := step.outcome t.hub.processor
  refine h.processor (hOutcome.run.invariant ClientKeyed (fun _ _ _ hStep hKeyed => hKeyed.step hStep) h.keyed) ?_
  intro c a' hGet
  have hCreated : t.createdAfter (.internal step hInternal createdOver) c =
      if (t.hub.processor.store.get c).isSome then t.createdOver c else createdOver c := rfl
  cases hThere : t.hub.processor.store.get c with
  | some a =>
    rw [hThere] at hCreated
    exact .inl ⟨a, rfl, hCreated⟩
  | none =>
    rw [hThere] at hCreated
    refine .inr ?_
    by_cases hRow : c ∈ step.restores
    · exact ⟨(hRows c hRow).1, hCreated.trans (hRows c hRow).2⟩
    · cases (hOutcome.vacant hInternal hThere hRow).symm.trans hGet

theorem Consistent.step {event : HubEvent} (hOne : event.OneTransport made t.hub) :
    Consistent made (t.apply event) := by
  cases event with
  | datagram env raw src =>
    obtain ⟨-, es, hOutcome⟩ := @outcome_processImpl t.hub.processor env raw src false
    exact h.packet hOne.1 hOne.2 nofun hOutcome
  | connectionOpened connection peerAddr => exact h.opened hOne.1 hOne.2
  | packetReceived env connection raw tcpRelay =>
    rw [Tracked.apply, Hub.step, Tracked.createdAfter]
    cases hLive : t.hub.live.get connection with
    | none => exact h
    | some peerAddr =>
      obtain ⟨es, actions, hOutcome⟩ := @outcome_stream t.hub.processor env raw peerAddr tcpRelay
      have hSink := h.live connection peerAddr hLive
      refine h.packet (h.sinks peerAddr connection hSink) (hOne peerAddr hLive) (fun kind _ => ?_) hOutcome
      rw [hSink]
      rfl
  | connectionClosed env connection => exact h.closed env connection
  | detached connection => exact h.detached connection
  | relayed env data peerAddr relayAddr => exact h.relayed env data peerAddr relayAddr
  | internal step hInternal createdOver => exact h.internal hInternal hOne

theorem Consistent.separated_received (tcpRelay : Bool)
    (hTicket : ∀ peerAddr, t.hub.live.get connection = some peerAddr →
      ∀ c, t.hub.processor.ticketAddr env raw peerAddr = some c → made c = .stream connection.kind) :
    Separated t (.packetReceived env connection raw tcpRelay) := by
  cases hLive : t.hub.live.get connection with
  | none =>
    have hStep : t.hub.step (.packetReceived env connection raw tcpRelay) = ([], t.hub) := by rw [Hub.step, hLive]
    refine ⟨fun _ _ c hIn => ?_, fun _ _ c a hGet _ => hStep ▸ hGet, fun _ _ w hIn => ?_⟩
    · rw [HubEvent.lookups, hLive] at hIn
      cases hIn
    · rw [hStep] at hIn
      cases hIn
  | some peerAddr =>
    have hOver := h.sinks peerAddr connection (h.live connection peerAddr hLive)
    obtain ⟨es, actions, hOutcome⟩ := @outcome_stream t.hub.processor env raw peerAddr tcpRelay
    have hStep : t.hub.step (.packetReceived env connection raw tcpRelay) =
        (t.hub.sendFrames connection peerAddr (t.hub.processor.deliver env peerAddr (.stream raw tcpRelay)).actions,
          { t.hub with processor := (t.hub.processor.deliver env peerAddr (.stream raw tcpRelay)).processor }) := by
      rw [Hub.step, hLive]
    refine ⟨?_, ?_, ?_⟩
    · rintro _ ⟨⟩ c hIn hThere
      rw [HubEvent.lookups, hLive] at hIn
      exact h.reads_packet hOver (hTicket peerAddr hLive) hIn hThere
    · rintro _ ⟨⟩ c a hGet hOther
      rw [hStep]
      exact h.keeps_packet hOver (hTicket peerAddr hLive) hOutcome hGet hOther
    · rintro _ ⟨⟩ w hIn
      rw [hStep] at hIn
      obtain ⟨action, hAction, hSent⟩ := mem_filterMap.mp hIn
      cases action with
      | send data target =>
        dsimp only at hSent
        rw [if_pos (repliesTo_stream tcpRelay data target hAction)] at hSent
        cases hSent
        rfl
      | _ => cases hSent

theorem Consistent.separated_closed (env : Surroundings) (connection : Connection) :
    Separated t (.connectionClosed env connection) := by
  have hOver : ∀ peerAddr, t.hub.live.get connection = some peerAddr → made peerAddr = .stream connection.kind :=
    fun peerAddr hLive => h.sinks peerAddr connection (h.live connection peerAddr hLive)
  refine ⟨?_, ?_, ?_⟩
  · rintro _ ⟨⟩ c hIn hThere
    obtain ⟨a, hGet⟩ := isSome_iff_exists.mp hThere
    exact (h.created c a hGet).trans (hOver c (mem_toList.mp hIn))
  · rintro _ ⟨⟩ c a hGet hOther
    rw [Hub.step]
    split
    · exact hGet
    next peerAddr hLive =>
    have hNe : c ≠ peerAddr := by
      rintro rfl
      exact hOther ((h.created c a hGet).trans (hOver c hLive))
    rw [get_release, if_neg hNe]
    exact hGet
  · intro _ _ w hIn
    rw [Hub.step] at hIn
    split at hIn <;> cases hIn

theorem Consistent.separated_relayed (env : Surroundings) (data : Bytes)
    (peerAddr relayAddr : SocketAddr) : Separated t (.relayed env data peerAddr relayAddr) := by
  have hSpec := @processRelayRecv_spec t.hub.processor env data peerAddr relayAddr
  have hStep : t.hub.step (.relayed env data peerAddr relayAddr) =
      (t.hub.sendBack (t.hub.processor.processRelayRecv env data peerAddr relayAddr).1,
        { t.hub with processor := (t.hub.processor.processRelayRecv env data peerAddr relayAddr).2 }) := rfl
  refine ⟨?_, ?_, ?_⟩
  · intro transport hTransport c hIn hThere
    obtain ⟨a, hGet⟩ := isSome_iff_exists.mp hThere
    obtain ⟨c', hIndex, rfl⟩ := map_eq_some_iff.mp hTransport
    have hSame : c' = c := some.inj (hIndex.symm.trans (mem_toList.mp hIn))
    subst hSame
    rw [h.created c' a hGet, h.route hGet]
  · intro transport hTransport c a hGet hOther
    obtain ⟨c', hIndex, rfl⟩ := map_eq_some_iff.mp hTransport
    rw [hStep]
    obtain hSame | ⟨c'', b, frame, hFound, hThere, hEq⟩ := hSpec
    · rw [hSame]
      exact hGet
    cases hIndex.symm.trans hFound
    have hNe : c ≠ c' := by
      rintro rfl
      exact hOther ((h.created c a hGet).trans (h.route hGet data).symm)
    rw [hEq]
    exact (get_meter_other _ hNe).trans hGet
  · intro transport hTransport w hIn
    obtain ⟨c', hIndex, rfl⟩ := map_eq_some_iff.mp hTransport
    rw [hStep] at hIn
    obtain ⟨action, hAction, hSent⟩ := mem_filterMap.mp hIn
    obtain hSame | ⟨c'', b, frame, hFound, hThere, hEq⟩ := hSpec
    · rw [hSame] at hAction
      cases mem_singleton.mp hAction
      cases hSent
    cases hIndex.symm.trans hFound
    rw [hEq] at hAction
    cases action with
    | send frameData target =>
      -- the frame goes to the address that the allocation names, which is its key
      cases hSent
      rw [(answer_encodeOrDrop frame).repliesTo frameData target hAction, h.keyed c' b hThere, h.route hThere,
        h.route hThere]
    | _ => cases hSent

theorem Consistent.separated {event : HubEvent} (hOne : event.OneTransport made t.hub) : Separated t event := by
  cases event with
  | datagram env raw src =>
    obtain ⟨-, es, hOutcome⟩ := @outcome_processImpl t.hub.processor env raw src false
    refine ⟨?_, ?_, ?_⟩
    · rintro _ ⟨⟩ c hIn hThere
      exact h.reads_packet hOne.1 hOne.2 hIn hThere
    · rintro _ ⟨⟩ c a hGet hOther
      exact h.keeps_packet hOne.1 hOne.2 hOutcome hGet hOther
    · rintro _ ⟨⟩ w hIn
      obtain ⟨action, -, hSent⟩ := mem_filterMap.mp hIn
      cases action <;> cases hSent
      rfl
  | connectionOpened connection peerAddr | detached connection => exact ⟨nofun, fun _ _ _ _ hGet _ => hGet, nofun⟩
  | packetReceived env connection raw tcpRelay => exact h.separated_received tcpRelay hOne
  | connectionClosed env connection => exact h.separated_closed env connection
  | relayed env data peerAddr relayAddr => exact h.separated_relayed env data peerAddr relayAddr
  | internal step hInternal createdOver => exact ⟨nofun, nofun, nofun⟩

end

end Invariant

/-! ## Two clients with one address -/

namespace Scenario

def sharedAddress : List HubEvent :=
  let env := surroundings longTerm 0
  [.datagram env (wire (allocateUdp 1 "alice")) (client 1),
    .datagram env (wire (request .createPermission 2 "alice" [.xorPeerAddress (peer 1)])) (client 1),
    .connectionOpened ⟨.plain, 1⟩ (client 1)]

def shared : Tracked := Trace.run Tracked.apply ⟨.start server, fun _ => .udp⟩ sharedAddress

end Scenario

/-- The end of the connection releases the allocation of the other client, whose data is written to it until then. -/
theorem stream_reaches_udp_allocation :
    let env := surroundings longTerm 0
    let hub := shared.hub
    shared.createdOver (client 1) = .udp ∧
    (hub.processor.store.get (client 1)).isSome = true ∧
    ((hub.step (.connectionClosed env ⟨.plain, 1⟩)).2.processor.store.get (client 1)).isNone = true ∧
    (hub.step (.relayed env [1] (peer 1) (.new externalIp 50000))).1.map Write.transport =
      [.stream .plain] := by
  decide +kernel

/-- In every run from an empty table in which every address has one transport. -/
theorem transports_separated (made : SocketAddr → ClientTransport) (p : Processor)
    (hEmpty : p.store.allocations = .empty) (createdOver : SocketAddr → ClientTransport) (events : List HubEvent)
    (hOne : Trace.Allowed Tracked.apply (fun t event => event.OneTransport made t.hub) ⟨.start p, createdOver⟩ events) :
    Trace.Allowed Tracked.apply Separated ⟨.start p, createdOver⟩ events :=
  hOne.imp (I := Consistent made) (fun _ _ h hEvent => h.step hEvent) (fun _ _ h hEvent => h.separated hEvent)
    (Consistent.start hEmpty createdOver)

theorem transports_separated_two : Trace.Allowed Tracked.apply Separated ⟨.start server, fun _ => .udp⟩
      [.datagram (surroundings longTerm 0) (wire (allocateUdp 1 "alice"))
        (client 1),
        .connectionOpened ⟨.plain, 1⟩ (client 2),
        .connectionClosed (surroundings longTerm 0) ⟨.plain, 1⟩] := by
  refine transports_separated (fun c => if c = client 2 then .stream .plain else .udp) _ rfl _ _
    ⟨⟨by decide, fun c hTicket => ?_⟩, ⟨by decide, nofun⟩, trivial, trivial⟩
  have hNone : server.ticketAddr (surroundings longTerm 0)
      (wire (allocateUdp 1 "alice")) (client 1) = none := by decide +kernel
  cases hNone.symm.trans hTicket

/-! ## The registries of stream connections -/

/-- The listeners, and the connections that are open with the address of their client. -/
structure Book where
  hub : Hub
  openAt : Connection → Option SocketAddr

def HubEvent.isDetach : HubEvent → Bool
  | .detached _ => true
  | .datagram _ _ _ => false
  | .connectionOpened _ _ => false
  | .packetReceived _ _ _ _ => false
  | .connectionClosed _ _ => false
  | .relayed _ _ _ _ => false
  | .internal _ _ _ => false

namespace Book

variable (book : Book)

def start (p : Processor) : Book := ⟨.start p, fun _ => none⟩

def openAfter : HubEvent → Connection → Option SocketAddr
  | .connectionOpened connection peerAddr => Function.update book.openAt connection (some peerAddr)
  | .connectionClosed _ connection => Function.update book.openAt connection none
  | .detached connection => Function.update book.openAt connection none
  | .datagram _ _ _ => book.openAt
  | .packetReceived _ _ _ _ => book.openAt
  | .relayed _ _ _ _ => book.openAt
  | .internal _ _ _ => book.openAt

def apply (event : HubEvent) : Book := ⟨(book.hub.step event).2, book.openAfter event⟩

/-- A connection ends once after it was opened, and open connections have different addresses. -/
def Reports : HubEvent → Prop
  | .connectionOpened connection peerAddr => book.openAt connection = none ∧ ∀ other, book.openAt other ≠ some peerAddr
  | .connectionClosed _ connection => (book.openAt connection).isSome
  | .detached connection => (book.openAt connection).isSome
  | .datagram _ _ _ => True
  | .packetReceived _ _ _ _ => True
  | .relayed _ _ _ _ => True
  | .internal _ _ _ => True

/-- The open connections, each under its address, and nothing is queued to another one. -/
structure Accurate : Prop where
  live : ∀ connection, book.hub.live.get connection = book.openAt connection
  sinks : ∀ peerAddr connection,
    book.hub.clientSinks.get peerAddr = some connection ↔ book.openAt connection = some peerAddr
  routed : ∀ target data connection, book.hub.route target data = .frame data connection →
    book.openAt connection = some target

end Book

variable {book : Book} {event : HubEvent}

theorem Book.Accurate.of_sinks {book : Book} (hLive : ∀ connection, book.hub.live.get connection = book.openAt connection)
    (hSinks : ∀ peerAddr connection,
      book.hub.clientSinks.get peerAddr = some connection ↔ book.openAt connection = some peerAddr) : book.Accurate := by
  refine ⟨hLive, hSinks, fun target data connection hRoute => ?_⟩
  rw [Hub.route] at hRoute
  split at hRoute
  · next connection' hSink =>
    cases hRoute
    exact (hSinks target connection).mp hSink
  · cases hRoute

theorem Book.Accurate.of_same {hub : Hub} (h : book.Accurate) (hLive : hub.live = book.hub.live)
    (hSinks : hub.clientSinks = book.hub.clientSinks) : Book.Accurate ⟨hub, book.openAt⟩ := by
  apply Book.Accurate.of_sinks
  · intro connection
    rw [hLive]
    exact h.live connection
  intro peerAddr connection
  rw [hSinks]
  exact h.sinks peerAddr connection

variable {connection : Connection}

theorem Book.Accurate.opened (h : book.Accurate) {peerAddr : SocketAddr}
    (hNew : book.openAt connection = none) (hFree : ∀ other, book.openAt other ≠ some peerAddr) :
    (book.apply (.connectionOpened connection peerAddr)).Accurate := by
  apply Book.Accurate.of_sinks
  · intro c
    simp only [Book.apply, Hub.step, Book.openAfter, get_insert, update_apply, h.live]
  intro addr c
  simp only [Book.apply, Hub.step, Book.openAfter, get_insert, update_apply]
  by_cases hAddr : addr = peerAddr
  · subst hAddr
    by_cases hc : c = connection
    · simp [hc]
    · simp [hc, Ne.symm hc, hFree c]
  · rw [if_neg hAddr, h.sinks]
    by_cases hc : c = connection
    · simp [hc, hNew, Ne.symm hAddr]
    · rw [if_neg hc]

theorem Book.Accurate.closed (h : book.Accurate) {env : Surroundings}
    (hOpen : (book.openAt connection).isSome) : (book.apply (.connectionClosed env connection)).Accurate := by
  obtain ⟨peerAddr, hAddr⟩ := Option.isSome_iff_exists.mp hOpen
  have hStep : (book.hub.step (.connectionClosed env connection)).2.live = book.hub.live.remove connection ∧
      (book.hub.step (.connectionClosed env connection)).2.clientSinks = book.hub.clientSinks.remove peerAddr := by
    rw [Hub.step, h.live, hAddr]
    exact ⟨rfl, rfl⟩
  apply Book.Accurate.of_sinks
  · intro c
    simp only [Book.apply, hStep.1, Book.openAfter, get_remove, update_apply, h.live]
  intro addr c
  simp only [Book.apply, hStep.2, Book.openAfter, get_remove, update_apply]
  by_cases hc : c = connection
  · subst hc
    by_cases hSame : addr = peerAddr
    · simp [hSame]
    · simp only [if_neg hSame, if_true, reduceCtorEq, iff_false, h.sinks, hAddr, Option.some.injEq]
      exact Ne.symm hSame
  · rw [if_neg hc]
    by_cases hSame : addr = peerAddr
    · -- the address of the closed connection is no other one's
      subst hSame
      have hOther : book.openAt c ≠ some addr := by
        intro hOther
        have hEq := ((h.sinks addr connection).mpr hAddr).symm.trans ((h.sinks addr c).mpr hOther)
        exact hc (Option.some.inj hEq).symm
      simp [hOther]
    · rw [if_neg hSame, h.sinks]

theorem Book.Accurate.step (h : book.Accurate) (hReports : book.Reports event) (hKept : event.isDetach = false) :
    (book.apply event).Accurate := by
  cases event with
  | connectionOpened connection peerAddr => exact h.opened hReports.1 hReports.2
  | connectionClosed env connection => exact h.closed hReports
  | detached connection => cases hKept
  | datagram env raw src | relayed env data peerAddr relayAddr | internal step hInternal createdOver =>
    exact h.of_same rfl rfl
  | packetReceived env connection raw tcpRelay =>
    have hSame : (book.hub.step (.packetReceived env connection raw tcpRelay)).2.live = book.hub.live ∧
        (book.hub.step (.packetReceived env connection raw tcpRelay)).2.clientSinks = book.hub.clientSinks := by
      rw [Hub.step]
      split <;> exact ⟨rfl, rfl⟩
    exact h.of_same hSame.1 hSame.2

theorem Book.accurate_start (p : Processor) : (Book.start p).Accurate := by
  apply Book.Accurate.of_sinks
  · exact fun _ => rfl
  · exact fun _ _ => ⟨nofun, nofun⟩

theorem Book.not_accurate_detach (h : book.Accurate)
    (hOpen : (book.openAt connection).isSome) : ¬ (book.apply (.detached connection)).Accurate := by
  intro hAfter
  obtain ⟨peerAddr, hAddr⟩ := Option.isSome_iff_exists.mp hOpen
  have hSink : (book.apply (.detached connection)).hub.clientSinks.get peerAddr = some connection :=
    (h.sinks peerAddr connection).mpr hAddr
  have hStill := (hAfter.sinks peerAddr connection).mp hSink
  simp [Book.apply, Book.openAfter] at hStill

/-- The registries are accurate after every event exactly if no connection is detached. -/
theorem registries_accurate_iff (p : Processor) (events : List HubEvent)
    (hReports : Trace.Allowed Book.apply Book.Reports (Book.start p) events) :
    (∀ pre, pre <+: events → (Trace.run Book.apply (Book.start p) pre).Accurate) ↔
      ∀ event ∈ events, event.isDetach = false := by
  rw [← @Trace.allowed_iff_forall _ _ Book.apply _ (Book.start p)]
  refine hReports.prefixes_iff (fun _ => id) (fun book event hAccurate hNow hAfter => ?_)
    (fun book event hAccurate hNow => hAccurate.step hNow) (Book.accurate_start p)
  cases event with
  | detached connection => exact absurd hAfter (Book.not_accurate_detach hAccurate hNow)
  | _ => rfl

theorem registries_accurate_closed : Trace.Allowed Book.apply Book.Reports (Book.start server)
        [.connectionOpened ⟨.tls, 1⟩ (client 1), .connectionClosed (surroundings longTerm 0) ⟨.tls, 1⟩] ∧
      ∀ pre, pre <+: ([.connectionOpened ⟨.tls, 1⟩ (client 1),
        .connectionClosed (surroundings longTerm 0) ⟨.tls, 1⟩] : List HubEvent) →
      (Trace.run Book.apply (Book.start server) pre).Accurate := by
  have hReports : Trace.Allowed Book.apply Book.Reports (Book.start server)
      [.connectionOpened ⟨.tls, 1⟩ (client 1), .connectionClosed (surroundings longTerm 0) ⟨.tls, 1⟩] :=
    ⟨⟨rfl, nofun⟩, rfl, trivial⟩
  refine ⟨hReports, (registries_accurate_iff server _ hReports).mpr ?_⟩
  simp [HubEvent.isDetach]

/-- What is sent to the address of a connection that was detached is queued to that connection. -/
theorem detached_sink_stays : Trace.Allowed Book.apply Book.Reports (Book.start server)
        [.connectionOpened ⟨.tls, 1⟩ (client 1), .detached ⟨.tls, 1⟩] ∧
      (Trace.run Book.apply (Book.start server)
        [.connectionOpened ⟨.tls, 1⟩ (client 1), .detached ⟨.tls, 1⟩]).openAt ⟨.tls, 1⟩ = none ∧
      (Trace.run Book.apply (Book.start server)
        [.connectionOpened ⟨.tls, 1⟩ (client 1), .detached ⟨.tls, 1⟩]).hub.route (client 1) [1] =
          .frame [1] ⟨.tls, 1⟩ := by
  refine ⟨⟨⟨rfl, nofun⟩, rfl, trivial⟩, ?_, ?_⟩
  · decide +kernel
  · decide +kernel

end Turna.Relay
