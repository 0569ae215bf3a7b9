import Turna.Lib.Bytes
import Turna.Lib.Index
import Turna.Lib.Machine
import Turna.Lib.Trace
import Turna.Net.Addr

/-! # The operations of the TCP relay, interleaved

Every region under a lock is one step; a dial takes as long as it likes. A log of what happened to each connection is
kept beside the manager.
-/

namespace Turna.Relay
open Lib Net HashMap Function

section

abbrev TcpConnectionId := UInt32

abbrev AllocationId := UInt64

abbrev TcpStream := Nat

inductive TcpRelayError where
  | io
  | connectionNotFound (id : TcpConnectionId)
  | alreadyExists (addr : SocketAddr) (id : TcpConnectionId)
  | connectTimeout (addr : SocketAddr)
  | alreadyBound (id : TcpConnectionId)
  | unauthorized (id : TcpConnectionId)
  | maxConnections (limit : Nat)
  deriving DecidableEq

structure TcpRelayConfig where
  maxPerAllocation : Nat
  maxTotal : Nat

inductive ConnState where
  | waitingForBind (stream : TcpStream) (peer : SocketAddr) (alloc : AllocationId) (owner : Bytes)
  | claimed (stream : TcpStream) (peer : SocketAddr) (alloc : AllocationId)
  | bound (alloc : AllocationId)
  deriving DecidableEq

def ConnState.alloc : ConnState → AllocationId
  | .waitingForBind _ _ alloc _ => alloc
  | .claimed _ _ alloc => alloc
  | .bound alloc => alloc

/-- A connection that is asked for: the allocation, the peer, and the key of the client. -/
structure PeerRequest where
  alloc : AllocationId
  peer : SocketAddr
  owner : Bytes
  deriving DecidableEq

inductive DialOutcome where
  | connected (stream : TcpStream)
  | timedOut
  | failed

structure RelayTask where
  id : TcpConnectionId
  stream : TcpStream
  peer : SocketAddr
  alloc : AllocationId
  deriving DecidableEq

structure TcpRelayManager where
  config : TcpRelayConfig
  conns : HashMap TcpConnectionId ConnState
  allocPeers : HashMap (AllocationId × SocketAddr) TcpConnectionId
  counter : UInt32

namespace TcpRelayManager

def new (config : TcpRelayConfig) : TcpRelayManager := ⟨config, .empty, .empty, 1⟩

variable (m : TcpRelayManager)

/-! ## Regions -/

def nextId : TcpConnectionId × TcpRelayManager := (m.counter, { m with counter := m.counter + 1 })

def full : Bool := m.config.maxTotal ≤ m.conns.len

def duplicate (r : PeerRequest) : Option TcpConnectionId := m.allocPeers.get (r.alloc, r.peer)

def insertConn (id : TcpConnectionId) (state : ConnState) : TcpRelayManager :=
  { m with conns := m.conns.insert id state }

def removeConn (id : TcpConnectionId) : TcpRelayManager := { m with conns := m.conns.remove id }

def insertPeer (alloc : AllocationId) (peer : SocketAddr) (id : TcpConnectionId) : TcpRelayManager :=
  { m with allocPeers := m.allocPeers.insert (alloc, peer) id }

def removePeer (alloc : AllocationId) (peer : SocketAddr) : TcpRelayManager :=
  { m with allocPeers := m.allocPeers.remove (alloc, peer) }

def claim (id : TcpConnectionId) (owner : Bytes) : Except TcpRelayError Unit × TcpRelayManager :=
  let c := m.removeConn id
  match m.conns.get id with
  | some (.waitingForBind stream peer alloc o) =>
    if o ≠ owner then (.error (.unauthorized id), c.insertConn id (.waitingForBind stream peer alloc o))
    else (.ok (), c.insertConn id (.claimed stream peer alloc))
  | some other => (.error (.alreadyBound id), c.insertConn id other)
  | none => (.error (.connectionNotFound id), c)

/-- The first region of `attach_bound`. -/
def takeClaimed (id : TcpConnectionId) :
    Except TcpRelayError (TcpStream × SocketAddr × AllocationId) × TcpRelayManager :=
  let c := m.removeConn id
  match m.conns.get id with
  | some (.claimed stream peer alloc) => (.ok (stream, peer, alloc), c)
  | some other => (.error (.alreadyBound id), c.insertConn id other)
  | none => (.error (.connectionNotFound id), c)

def idsOf (alloc : AllocationId) : List TcpConnectionId :=
  (m.conns.entries.filter fun e => e.2.alloc = alloc).map Prod.fst

def removeAll (ids : List TcpConnectionId) : TcpRelayManager := { m with conns := ids.foldl HashMap.remove m.conns }

/-- The timer of a connection runs out. The lock of `conns` is held to the end. -/
def idleTimeout (id : TcpConnectionId) : TcpRelayManager :=
  let c := m.removeConn id
  match m.conns.get id with
  | some (.waitingForBind _ peer alloc _) => c.removePeer alloc peer
  | some (.claimed _ peer alloc) => c.removePeer alloc peer
  | some other => c.insertConn id other
  | none => c

/-! ## Operations -/

def register (r : PeerRequest) (stream : TcpStream) : TcpConnectionId × TcpRelayManager :=
  let (id, m) := m.nextId
  (id, (m.insertConn id (.waitingForBind stream r.peer r.alloc r.owner)).insertPeer r.alloc r.peer id)

def handleConnect (r : PeerRequest) (dial : DialOutcome) : Except TcpRelayError TcpConnectionId × TcpRelayManager :=
  if m.full then (.error (.maxConnections m.config.maxTotal), m)
  else
    match m.duplicate r with
    | some id => (.error (.alreadyExists r.peer id), m)
    | none =>
      match dial with
      | .timedOut => (.error (.connectTimeout r.peer), m)
      | .failed => (.error .io, m)
      | .connected stream => (.ok (m.register r stream).1, (m.register r stream).2)

def registerIncoming (r : PeerRequest) (stream : TcpStream) :
    Except TcpRelayError TcpConnectionId × TcpRelayManager :=
  if m.full then (.error (.maxConnections m.config.maxTotal), m)
  else
    match m.duplicate r with
    | some id => (.error (.alreadyExists r.peer id), m)
    | none => (.ok (m.register r stream).1, (m.register r stream).2)

def release (id : TcpConnectionId) : TcpRelayManager :=
  let c := m.removeConn id
  match m.conns.get id with
  | some (.waitingForBind _ peer alloc _) => c.removePeer alloc peer
  | some (.claimed _ peer alloc) => c.removePeer alloc peer
  | some other => c.insertConn id other
  | none => c

def attachBound (id : TcpConnectionId) :
    Except TcpRelayError (TcpStream × SocketAddr × AllocationId) × TcpRelayManager :=
  match m.takeClaimed id with
  | (.ok (stream, peer, alloc), m) => (.ok (stream, peer, alloc), m.insertConn id (.bound alloc))
  | (.error e, m) => (.error e, m)

def relayDone (id : TcpConnectionId) (alloc : AllocationId) (peer : SocketAddr) : TcpRelayManager :=
  (m.removeConn id).removePeer alloc peer

def cleanupAllocation (alloc : AllocationId) : TcpRelayManager := m.removeAll (m.idsOf alloc)

end TcpRelayManager

/-! ## What the regions do to the tables -/

namespace TcpRelayManager

variable {m : TcpRelayManager} {id : TcpConnectionId}

@[simp] theorem conns_insertConn (state : ConnState) : (m.insertConn id state).conns = m.conns.insert id state := rfl

@[simp] theorem allocPeers_insertConn (state : ConnState) : (m.insertConn id state).allocPeers = m.allocPeers := rfl

@[simp] theorem conns_removeConn : (m.removeConn id).conns = m.conns.remove id := rfl

@[simp] theorem allocPeers_removeConn : (m.removeConn id).allocPeers = m.allocPeers := rfl

@[simp] theorem conns_removePeer (alloc : AllocationId) (peer : SocketAddr) :
    (m.removePeer alloc peer).conns = m.conns := rfl

@[simp] theorem allocPeers_removePeer (alloc : AllocationId) (peer : SocketAddr) :
    (m.removePeer alloc peer).allocPeers = m.allocPeers.remove (alloc, peer) := rfl

@[simp] theorem conns_insertPeer (alloc : AllocationId) (peer : SocketAddr) :
    (m.insertPeer alloc peer id).conns = m.conns := rfl

@[simp] theorem allocPeers_insertPeer (alloc : AllocationId) (peer : SocketAddr) :
    (m.insertPeer alloc peer id).allocPeers = m.allocPeers.insert (alloc, peer) id := rfl

theorem mem_idsOf {alloc : AllocationId} :
    id ∈ m.idsOf alloc ↔ ∃ state, m.conns.get id = some state ∧ state.alloc = alloc := by
  simp only [idsOf, List.mem_map, List.mem_filter, decide_eq_true_eq]
  constructor
  · rintro ⟨⟨id', state⟩, ⟨hMem, hAlloc⟩, rfl⟩
    exact ⟨state, mem_entries_iff.mp hMem, hAlloc⟩
  · rintro ⟨state, hGet, hAlloc⟩
    exact ⟨(id, state), ⟨mem_entries_iff.mpr hGet, hAlloc⟩, rfl⟩

theorem get_putBack {state : ConnState} (h : m.conns.get id = some state) (id' : TcpConnectionId) :
    ((m.removeConn id).insertConn id state).conns.get id' = m.conns.get id' := by
  rw [conns_insertConn, conns_removeConn, insert_remove, get_insert]
  split
  · next hEq => rw [hEq, h]
  · rfl

theorem claim_cases (m : TcpRelayManager) (id : TcpConnectionId) (owner : Bytes) :
    (∃ e, (m.claim id owner).1 = .error e ∧ (∀ id', (m.claim id owner).2.conns.get id' = m.conns.get id') ∧
      (m.claim id owner).2.allocPeers = m.allocPeers ∧ (m.claim id owner).2.counter = m.counter ∧
        (m.claim id owner).2.config = m.config) ∨
    ∃ stream peer alloc, m.conns.get id = some (.waitingForBind stream peer alloc owner) ∧
      m.claim id owner = (.ok (), (m.removeConn id).insertConn id (.claimed stream peer alloc)) := by
  rw [claim]
  split
  · next stream peer alloc o hGet =>
    split
    · exact .inl ⟨_, rfl, get_putBack hGet, rfl, rfl, rfl⟩
    next hOwner =>
    rw [not_not] at hOwner
    subst hOwner
    exact .inr ⟨stream, peer, alloc, hGet, rfl⟩
  · next other _ hGet => exact .inl ⟨_, rfl, get_putBack hGet, rfl, rfl, rfl⟩
  · next hGet =>
    refine .inl ⟨_, rfl, fun id' => ?_, rfl, rfl, rfl⟩
    rw [conns_removeConn, remove_of_get_none hGet]

theorem takeClaimed_cases (m : TcpRelayManager) (id : TcpConnectionId) :
    (∃ e, (m.takeClaimed id).1 = .error e ∧ (∀ id', (m.takeClaimed id).2.conns.get id' = m.conns.get id') ∧
      (m.takeClaimed id).2.allocPeers = m.allocPeers ∧ (m.takeClaimed id).2.counter = m.counter ∧
        (m.takeClaimed id).2.config = m.config) ∨
    ∃ stream peer alloc, m.conns.get id = some (.claimed stream peer alloc) ∧
      m.takeClaimed id = (.ok (stream, peer, alloc), m.removeConn id) := by
  rw [takeClaimed]
  split
  · next stream peer alloc hGet => exact .inr ⟨stream, peer, alloc, hGet, rfl⟩
  · next other _ hGet => exact .inl ⟨_, rfl, get_putBack hGet, rfl, rfl, rfl⟩
  · next hGet =>
    refine .inl ⟨_, rfl, fun id' => ?_, rfl, rfl, rfl⟩
    rw [conns_removeConn, remove_of_get_none hGet]

end TcpRelayManager

/-! ## The operations of the TCP relay, interleaved -/

open TcpRelayManager

inductive TcpCall where
  | connect (r : PeerRequest)
  | connectChecked (r : PeerRequest)
  | dialing (r : PeerRequest)
  | incoming (r : PeerRequest) (stream : TcpStream)
  | incomingChecked (r : PeerRequest) (stream : TcpStream)
  | connected (r : PeerRequest) (stream : TcpStream)
  | minted (id : TcpConnectionId) (r : PeerRequest) (stream : TcpStream)
  | registered (id : TcpConnectionId) (r : PeerRequest)
  | idling (id : TcpConnectionId)
  | claim (id : TcpConnectionId) (owner : Bytes)
  | release (id : TcpConnectionId)
  | restoring (id : TcpConnectionId) (state : ConnState)
  | unlinking (alloc : AllocationId) (peer : SocketAddr)
  | attach (id : TcpConnectionId)
  | attaching (task : RelayTask)
  | relaying (task : RelayTask)
  | cleanup (alloc : AllocationId)
  | cleaning (ids : List TcpConnectionId)
  | done
  deriving DecidableEq

inductive TcpEvent where
  | opened (id : TcpConnectionId) (r : PeerRequest) (stream : TcpStream)
  | entered (id : TcpConnectionId) (r : PeerRequest)
  | claimed (id : TcpConnectionId) (owner : Bytes)
  | attached (id : TcpConnectionId) (stream : TcpStream)
  | relayed (id : TcpConnectionId)
  | unregistered (id : TcpConnectionId)
  deriving DecidableEq

def TcpEvent.id : TcpEvent → TcpConnectionId
  | .opened id _ _ => id
  | .entered id _ => id
  | .claimed id _ => id
  | .attached id _ => id
  | .relayed id => id
  | .unregistered id => id

/-- The manager, how many ids it has given out, and the log, latest first. -/
structure TcpWorld where
  manager : TcpRelayManager
  minted : Nat
  log : List TcpEvent

namespace TcpWorld

def new (config : TcpRelayConfig) : TcpWorld := ⟨.new config, 0, []⟩

variable (s : TcpWorld)

def record (e : TcpEvent) : TcpWorld := { s with log := e :: s.log }

def unregister (ids : List TcpConnectionId) : List TcpEvent :=
  (ids.filter fun id =>
    match s.manager.conns.get id with
    | some (.bound _) => true
    | _ => false).map .unregistered

def releaseStep (id : TcpConnectionId) : TcpWorld × TcpCall :=
  let removed := { s with manager := s.manager.removeConn id }
  match s.manager.conns.get id with
  | some (.waitingForBind _ peer alloc _) => (removed, .unlinking alloc peer)
  | some (.claimed _ peer alloc) => (removed, .unlinking alloc peer)
  | some other => (removed, .restoring id other)
  | none => (removed, .done)

def claimStep (id : TcpConnectionId) (owner : Bytes) : TcpWorld :=
  match s.manager.claim id owner with
  | (.ok (), m) => { s with manager := m, log := .claimed id owner :: s.log }
  | (.error _, m) => { s with manager := m }

def attachStep (id : TcpConnectionId) : TcpWorld × TcpCall :=
  match s.manager.takeClaimed id with
  | (.ok (stream, peer, alloc), m) =>
    ({ s with manager := m, log := .attached id stream :: s.log }, .attaching ⟨id, stream, peer, alloc⟩)
  | (.error _, m) => ({ s with manager := m }, .done)

def advance (dial : DialOutcome) : TcpCall → Option (TcpWorld × TcpCall)
  | .connect r => some (s, if s.manager.full then .done else .connectChecked r)
  | .connectChecked r => some (s, if (s.manager.duplicate r).isSome then .done else .dialing r)
  | .dialing r =>
    match dial with
    | .connected stream => some (s, .connected r stream)
    | .timedOut => some (s, .done)
    | .failed => some (s, .done)
  | .incoming r stream => some (s, if s.manager.full then .done else .incomingChecked r stream)
  | .incomingChecked r stream => some (s, if (s.manager.duplicate r).isSome then .done else .connected r stream)
  | .connected r stream =>
    let (id, m) := s.manager.nextId
    some ({ manager := m, minted := s.minted + 1, log := .opened id r stream :: s.log }, .minted id r stream)
  | .minted id r stream =>
    some ({ s with
      manager := s.manager.insertConn id (.waitingForBind stream r.peer r.alloc r.owner)
      log := .entered id r :: s.log }, .registered id r)
  | .registered id r => some ({ s with manager := s.manager.insertPeer r.alloc r.peer id }, .idling id)
  | .idling id => some ({ s with manager := s.manager.idleTimeout id }, .done)
  | .claim id owner => some (s.claimStep id owner, .done)
  | .release id => some (s.releaseStep id)
  | .restoring id state => some ({ s with manager := s.manager.insertConn id state }, .done)
  | .unlinking alloc peer => some ({ s with manager := s.manager.removePeer alloc peer }, .done)
  | .attach id => some (s.attachStep id)
  | .attaching task =>
    some ({ s with
      manager := s.manager.insertConn task.id (.bound task.alloc)
      log := .relayed task.id :: s.log }, .relaying task)
  | .relaying task =>
    some ({ s with manager := s.manager.removeConn task.id }, .unlinking task.alloc task.peer)
  | .cleanup alloc =>
    some (s, if s.manager.idsOf alloc = [] then .done else .cleaning (s.manager.idsOf alloc))
  | .cleaning ids =>
    some ({ s with manager := s.manager.removeAll ids, log := s.unregister ids ++ s.log }, .done)
  | .done => none

def start : TcpCall → Option TcpWorld
  | .connect _ => some s
  | .incoming _ _ => some s
  | .claim _ _ => some s
  | .release _ => some s
  | .attach _ => some s
  | .cleanup _ => some s
  | _ => none

end TcpWorld

def tcpMachine : Machine TcpWorld TcpCall DialOutcome where
  start := TcpWorld.start
  advance dial s call := s.advance dial call

/-! ## Calls that carry a connection -/

namespace TcpCall

def neutral : TcpCall → Bool
  | .minted .. => false
  | .restoring .. => false
  | .attaching _ => false
  | .relaying _ => false
  | _ => true

def holds (id : TcpConnectionId) : TcpCall → Bool
  | .minted id' _ _ => id' = id
  | .attaching task => task.id = id
  | .relaying task => task.id = id
  | _ => false

end TcpCall

theorem TcpWorld.neutral_of_start {s s' : TcpWorld} {call : TcpCall} (h : s.start call = some s') :
    call.neutral = true ∧ s' = s := by
  cases call <;> cases h <;> exact ⟨rfl, rfl⟩

/-! ## What a region does -/

structure TcpRelayManager.SameConns (m m' : TcpRelayManager) : Prop where
  get : ∀ id, m'.conns.get id = m.conns.get id
  counter : m'.counter = m.counter
  config : m'.config = m.config

theorem TcpRelayManager.SameConns.refl (m : TcpRelayManager) : m.SameConns m := ⟨fun _ => rfl, rfl, rfl⟩

inductive TcpStep (s : TcpWorld) : TcpCall → TcpWorld → TcpCall → Prop where
  | silent {call call' : TcpCall} {m' : TcpRelayManager} (hCall : call.neutral = true) (hCall' : call'.neutral = true)
      (hSame : s.manager.SameConns m') : TcpStep s call { s with manager := m' } call'
  | mint (r : PeerRequest) (stream : TcpStream) :
      TcpStep s (.connected r stream)
        { manager := s.manager.nextId.2, minted := s.minted + 1, log := .opened s.manager.counter r stream :: s.log }
        (.minted s.manager.counter r stream)
  | enter (id : TcpConnectionId) (r : PeerRequest) (stream : TcpStream) :
      TcpStep s (.minted id r stream)
        { s with
          manager := s.manager.insertConn id (.waitingForBind stream r.peer r.alloc r.owner)
          log := .entered id r :: s.log } (.registered id r)
  | claim {id : TcpConnectionId} {owner : Bytes} {stream : TcpStream} {peer : SocketAddr} {alloc : AllocationId}
      (hGet : s.manager.conns.get id = some (.waitingForBind stream peer alloc owner)) :
      TcpStep s (.claim id owner)
        { s with
          manager := (s.manager.removeConn id).insertConn id (.claimed stream peer alloc)
          log := .claimed id owner :: s.log } .done
  | drop {call call' : TcpCall} {id : TcpConnectionId} {state : ConnState} {m' : TcpRelayManager}
      (hCall : call.neutral = true) (hCall' : call'.neutral = true) (hGet : s.manager.conns.get id = some state)
      (hNot : ∀ alloc, state ≠ .bound alloc) (hConns : m'.conns = s.manager.conns.remove id)
      (hCounter : m'.counter = s.manager.counter) (hConfig : m'.config = s.manager.config) :
      TcpStep s call { s with manager := m' } call'
  | take {id : TcpConnectionId} {stream : TcpStream} {peer : SocketAddr} {alloc : AllocationId}
      (hGet : s.manager.conns.get id = some (.claimed stream peer alloc)) :
      TcpStep s (.attach id) { s with manager := s.manager.removeConn id, log := .attached id stream :: s.log }
        (.attaching ⟨id, stream, peer, alloc⟩)
  | bind (task : RelayTask) :
      TcpStep s (.attaching task)
        { s with
          manager := s.manager.insertConn task.id (.bound task.alloc)
          log := .relayed task.id :: s.log } (.relaying task)
  | finish (task : RelayTask) :
      TcpStep s (.relaying task) { s with manager := s.manager.removeConn task.id } (.unlinking task.alloc task.peer)
  | lift {id : TcpConnectionId} {alloc : AllocationId} (hGet : s.manager.conns.get id = some (.bound alloc)) :
      TcpStep s (.release id) { s with manager := s.manager.removeConn id } (.restoring id (.bound alloc))
  | putBack (id : TcpConnectionId) (state : ConnState) :
      TcpStep s (.restoring id state) { s with manager := s.manager.insertConn id state } .done
  | clean (ids : List TcpConnectionId) :
      TcpStep s (.cleaning ids) { s with manager := s.manager.removeAll ids, log := s.unregister ids ++ s.log } .done

namespace TcpWorld

variable {s s' : TcpWorld} {id : TcpConnectionId} {call' : TcpCall}

theorem step_claim (owner : Bytes) : TcpStep s (.claim id owner) (s.claimStep id owner) .done := by
  rw [claimStep]
  rcases s.manager.claim_cases id owner with ⟨e, hError, hConns, -, hCounter, hConfig⟩ | ⟨stream, p, a, hGet, hClaim⟩
  · obtain ⟨result, m', hClaim⟩ : ∃ result m', s.manager.claim id owner = (result, m') := ⟨_, _, rfl⟩
    rw [hClaim] at hError hConns hCounter hConfig ⊢
    replace hError : result = .error e := hError
    rw [hError]
    exact .silent rfl rfl ⟨hConns, hCounter, hConfig⟩
  · rw [hClaim]
    exact .claim hGet

theorem step_attach : TcpStep s (.attach id) (s.attachStep id).1 (s.attachStep id).2 := by
  rw [attachStep]
  rcases s.manager.takeClaimed_cases id with ⟨e, hError, hConns, -, hCounter, hConfig⟩ | ⟨stream, p, a, hGet, hTake⟩
  · obtain ⟨result, m', hTake⟩ : ∃ result m', s.manager.takeClaimed id = (result, m') := ⟨_, _, rfl⟩
    rw [hTake] at hError hConns hCounter hConfig ⊢
    replace hError : result = .error e := hError
    rw [hError]
    exact .silent rfl rfl ⟨hConns, hCounter, hConfig⟩
  · rw [hTake]
    exact .take hGet

theorem removeConn_same {m : TcpRelayManager} (hGet : m.conns.get id = none) : m.SameConns (m.removeConn id) := by
  refine ⟨fun id' => ?_, rfl, rfl⟩
  rw [conns_removeConn, HashMap.remove_of_get_none hGet]

theorem step_release : TcpStep s (.release id) (s.releaseStep id).1 (s.releaseStep id).2 := by
  rw [releaseStep]
  cases hGet : s.manager.conns.get id with
  | none => exact .silent rfl rfl (removeConn_same hGet)
  | some state =>
    cases state with
    | waitingForBind stream p a owner | claimed stream p a => exact .drop rfl rfl hGet nofun rfl rfl rfl
    | bound a => exact .lift hGet

theorem step_idle : TcpStep s (.idling id) { s with manager := s.manager.idleTimeout id } .done := by
  rw [idleTimeout]
  cases hGet : s.manager.conns.get id with
  | none => exact .silent rfl rfl (removeConn_same hGet)
  | some state =>
    cases state with
    | waitingForBind stream p a owner | claimed stream p a => exact .drop rfl rfl hGet nofun rfl rfl rfl
    | bound a => exact .silent rfl rfl ⟨get_putBack hGet, rfl, rfl⟩

variable {dial : DialOutcome}

theorem step_of_advance {call : TcpCall} (h : s.advance dial call = some (s', call')) : TcpStep s call s' call' := by
  have hQuiet : ∀ {call call' : TcpCall}, call.neutral = true → call'.neutral = true → TcpStep s call s call' :=
    fun hCall hCall' => .silent hCall hCall' (.refl _)
  cases call with
  | connect r | connectChecked r | incoming r stream | incomingChecked r stream | cleanup alloc =>
    cases h
    exact hQuiet rfl (by split <;> rfl)
  | dialing r => cases dial <;> cases h <;> exact hQuiet rfl rfl
  | connected r stream =>
    cases h
    exact .mint r stream
  | minted id r stream =>
    cases h
    exact .enter id r stream
  | registered id r | unlinking alloc peer =>
    cases h
    exact .silent rfl rfl ⟨fun _ => rfl, rfl, rfl⟩
  | idling id =>
    cases h
    exact step_idle
  | claim id owner =>
    cases h
    exact step_claim owner
  | release id =>
    have hStep : TcpStep s (.release id) (s.releaseStep id).1 (s.releaseStep id).2 := step_release
    rw [Option.some.inj h] at hStep
    exact hStep
  | restoring id state =>
    cases h
    exact .putBack id state
  | attach id =>
    have hStep : TcpStep s (.attach id) (s.attachStep id).1 (s.attachStep id).2 := step_attach
    rw [Option.some.inj h] at hStep
    exact hStep
  | attaching task =>
    cases h
    exact .bind task
  | relaying task =>
    cases h
    exact .finish task
  | cleaning ids =>
    cases h
    exact .clean ids
  | done => cases h

/-! ## An operation that is not interrupted -/

/-- From `call` to the end of its operation with no step of another call. -/
inductive Alone (dial : DialOutcome) : TcpWorld → TcpCall → TcpRelayManager → Prop where
  | finished {s : TcpWorld} : Alone dial s .done s.manager
  | waits {s : TcpWorld} {id : TcpConnectionId} : Alone dial s (.idling id) s.manager
  | relays {s : TcpWorld} {task : RelayTask} : Alone dial s (.relaying task) s.manager
  | next {s s' : TcpWorld} {call call' : TcpCall} {m : TcpRelayManager} (h : s.advance dial call = some (s', call'))
      (hRest : Alone dial s' call' m) : Alone dial s call m

end TcpWorld

/-! ## Schedules -/

namespace TcpScenario

def request (port : UInt16) : PeerRequest := ⟨50000, .v4 ⟨198, 51, 100, 1⟩ port, [1]⟩

def steps (index n : Nat) : List (Machine.Choice TcpCall DialOutcome) :=
  List.replicate n (.advance index (.connected 7))

def relayed : List (Machine.Choice TcpCall DialOutcome) :=
  .start (.connect (request 80)) :: steps 0 6 ++ .start (.claim 1 [1]) :: steps 0 1 ++ .start (.attach 1) :: steps 0 2

end TcpScenario

end

/-! ## The two tables of the TCP relay -/

open List TcpRelayManager

/-- `peerOf` keeps the peer of a connection, which a bound connection no longer carries. -/
structure TcpTables where
  manager : TcpRelayManager
  relays : List RelayTask
  peerOf : TcpConnectionId → Option SocketAddr

inductive TcpOp where
  | connect (r : PeerRequest) (stream : TcpStream)
  | incoming (r : PeerRequest) (stream : TcpStream)
  | claim (id : TcpConnectionId) (owner : Bytes)
  | release (id : TcpConnectionId)
  | attach (id : TcpConnectionId)
  | relayEnd (task : RelayTask)
  | idleTimeout (id : TcpConnectionId)
  | cleanup (alloc : AllocationId)

namespace TcpTables

def new (config : TcpRelayConfig) : TcpTables := ⟨.new config, [], fun _ => none⟩

variable (s : TcpTables)

def opened (peer : SocketAddr) : Except TcpRelayError TcpConnectionId × TcpRelayManager → TcpTables
  | (.ok id, m) => { s with manager := m, peerOf := Function.update s.peerOf id (some peer) }
  | (.error _, m) => { s with manager := m }

def attached (id : TcpConnectionId) :
    Except TcpRelayError (TcpStream × SocketAddr × AllocationId) × TcpRelayManager → TcpTables
  | (.ok (stream, peer, alloc), m) => { s with manager := m, relays := ⟨id, stream, peer, alloc⟩ :: s.relays }
  | (.error _, m) => { s with manager := m }

def apply : TcpOp → TcpTables
  | .connect r stream => s.opened r.peer (s.manager.handleConnect r (.connected stream))
  | .incoming r stream => s.opened r.peer (s.manager.registerIncoming r stream)
  | .claim id owner => { s with manager := (s.manager.claim id owner).2 }
  | .release id => { s with manager := s.manager.release id }
  | .attach id => s.attached id (s.manager.attachBound id)
  | .relayEnd task =>
    if task ∈ s.relays then
      { s with manager := s.manager.relayDone task.id task.alloc task.peer, relays := s.relays.erase task }
    else s
  | .idleTimeout id => { s with manager := s.manager.idleTimeout id }
  | .cleanup alloc => { s with manager := s.manager.cleanupAllocation alloc }

def Holds (id : TcpConnectionId) (alloc : AllocationId) (peer : SocketAddr) : Prop :=
  match s.manager.conns.get id with
  | some (.waitingForBind _ p a _) => a = alloc ∧ p = peer
  | some (.claimed _ p a) => a = alloc ∧ p = peer
  | some (.bound a) => a = alloc ∧ s.peerOf id = some peer
  | none => False

/-- A connection is refused as a duplicate only if there is one. -/
structure Agree : Prop where
  index : ∀ alloc peer id, s.manager.allocPeers.get (alloc, peer) = some id ↔ s.Holds id alloc peer
  connect : ∀ r dial id, (s.manager.handleConnect r dial).1 = .error (.alreadyExists r.peer id) →
    s.Holds id r.alloc r.peer
  incoming : ∀ r stream id, (s.manager.registerIncoming r stream).1 = .error (.alreadyExists r.peer id) →
    s.Holds id r.alloc r.peer

/-- A new id is not in use, and an allocation is cleaned up only when it has no connection. -/
def Good : TcpOp → Prop
  | .connect r _ => s.manager.full = false → s.manager.duplicate r = none →
    s.manager.conns.get s.manager.counter = none
  | .incoming r _ => s.manager.full = false → s.manager.duplicate r = none →
    s.manager.conns.get s.manager.counter = none
  | .cleanup alloc => ∀ id state, s.manager.conns.get id = some state → state.alloc ≠ alloc
  | .claim _ _ => True
  | .release _ => True
  | .attach _ => True
  | .relayEnd _ => True
  | .idleTimeout _ => True

def listed (id : TcpConnectionId) : Option (AllocationId × SocketAddr) :=
  (s.manager.conns.get id).bind fun state => (s.peerOf id).map fun peer => (state.alloc, peer)

def PeerKnown (id : TcpConnectionId) : ConnState → Prop
  | .waitingForBind _ p _ _ => s.peerOf id = some p
  | .claimed _ p _ => s.peerOf id = some p
  | .bound _ => ∃ peer, s.peerOf id = some peer

structure Linked : Prop where
  mirror : Mirror s.manager.allocPeers.get s.listed
  known : ∀ id state, s.manager.conns.get id = some state → s.PeerKnown id state
  relays : ∀ task ∈ s.relays,
    s.manager.conns.get task.id = some (.bound task.alloc) ∧ s.peerOf task.id = some task.peer
  once : (s.relays.map RelayTask.id).Nodup

end TcpTables

section Agreement

variable {s : TcpTables} {id : TcpConnectionId} {alloc : AllocationId} {peer : SocketAddr}

theorem TcpTables.Linked.holds_iff (h : s.Linked) : s.Holds id alloc peer ↔ s.listed id = some (alloc, peer) := by
  rw [TcpTables.Holds, TcpTables.listed]
  cases hGet : s.manager.conns.get id with
  | none => simp
  | some state =>
    have hKnown := h.known id state hGet
    cases state with
    | waitingForBind stream p a owner | claimed stream p a =>
      rw [TcpTables.PeerKnown] at hKnown
      simp [hKnown, ConnState.alloc]
    | bound a => simp [ConnState.alloc, and_comm]

theorem TcpTables.Linked.listed_of_get (h : s.Linked) {state : ConnState} (hGet : s.manager.conns.get id = some state) :
    ∃ peer, s.peerOf id = some peer ∧ s.listed id = some (state.alloc, peer) := by
  have hKnown := h.known id state hGet
  obtain ⟨peer, hPeer⟩ : ∃ peer, s.peerOf id = some peer := by
    cases state with
    | waitingForBind stream p a owner | claimed stream p a => exact ⟨p, hKnown⟩
    | bound a => exact hKnown
  refine ⟨peer, hPeer, ?_⟩
  simp [TcpTables.listed, hGet, hPeer]

variable {r : PeerRequest}

theorem duplicate_of_connect {m : TcpRelayManager} {dial : DialOutcome}
    (h : (m.handleConnect r dial).1 = .error (.alreadyExists r.peer id)) : m.duplicate r = some id := by
  rw [handleConnect.eq_def] at h
  split at h
  · cases h
  split at h
  · next hDup =>
    cases h
    exact hDup
  · split at h <;> cases h

theorem duplicate_of_incoming {m : TcpRelayManager} {stream : TcpStream}
    (h : (m.registerIncoming r stream).1 = .error (.alreadyExists r.peer id)) : m.duplicate r = some id := by
  rw [registerIncoming] at h
  split at h
  · cases h
  split at h
  · next hDup =>
    cases h
    exact hDup
  · cases h

theorem TcpTables.Linked.agree (h : s.Linked) : s.Agree := by
  have hIndex : ∀ alloc peer id, s.manager.allocPeers.get (alloc, peer) = some id ↔ s.Holds id alloc peer := by
    intro alloc peer id
    rw [h.holds_iff]
    exact h.mirror (alloc, peer) id
  refine ⟨hIndex, fun r dial id hRefused => ?_, fun r stream id hRefused => ?_⟩
  · exact (hIndex _ _ _).mp (duplicate_of_connect hRefused)
  · exact (hIndex _ _ _).mp (duplicate_of_incoming hRefused)

/-! ## What the operations do -/

def TcpTables.opening (s : TcpTables) (r : PeerRequest) (stream : TcpStream) : TcpTables :=
  if s.manager.full = false ∧ s.manager.duplicate r = none then
    s.opened r.peer (.ok s.manager.counter, (s.manager.register r stream).2)
  else s

theorem TcpTables.apply_connect (r : PeerRequest) (stream : TcpStream) :
    s.apply (.connect r stream) = s.opening r stream := by
  rw [apply, opening, handleConnect.eq_def]
  cases s.manager.full
  · cases s.manager.duplicate r with
    | none => rfl
    | some id => simp [opened]
  · simp [opened]

theorem TcpTables.apply_incoming (r : PeerRequest) (stream : TcpStream) :
    s.apply (.incoming r stream) = s.opening r stream := by
  rw [apply, opening, registerIncoming]
  cases s.manager.full
  · cases s.manager.duplicate r with
    | none => rfl
    | some id => simp [opened]
  · simp [opened]

namespace TcpTables.Linked

variable {stream : TcpStream} {r : PeerRequest}

theorem opening (h : s.Linked) (hFresh : s.manager.full = false →
    s.manager.duplicate r = none → s.manager.conns.get s.manager.counter = none) : (s.opening r stream).Linked := by
  rw [TcpTables.opening]
  split
  · next hPasses =>
    obtain ⟨hRoom, hNew⟩ := hPasses
    have hNone := hFresh hRoom hNew
    have hListed : s.listed s.manager.counter = none := by simp [listed, hNone]
    refine ⟨?_, fun id state hGet => ?_, fun task hTask => ?_, h.once⟩
    · have hLink := h.mirror.link (i := (r.alloc, r.peer)) hNew hListed
      have hView : (s.opened r.peer (.ok s.manager.counter, (s.manager.register r stream).2)).listed =
          update s.listed s.manager.counter (some (r.alloc, r.peer)) := by
        funext id
        simp only [listed, opened, register, nextId, conns_insertPeer,
          conns_insertConn, get_insert, update_apply]
        by_cases hId : id = s.manager.counter
        · simp [hId, ConnState.alloc]
        · simp [hId]
      rw [hView]
      simp only [opened, register, nextId, allocPeers_insertPeer,
        allocPeers_insertConn, get_insert_eq_update]
      exact hLink
    · simp only [opened, register, nextId, conns_insertPeer,
        conns_insertConn, get_insert] at hGet
      split at hGet
      · next hId =>
        cases hGet
        simp [PeerKnown, opened, hId]
      next hId =>
      have hKnown := h.known id state hGet
      cases state <;> simpa [PeerKnown, opened, update_apply, hId] using hKnown
    · obtain ⟨hGet, hPeer⟩ := h.relays task hTask
      have hId : task.id ≠ s.manager.counter := by
        rintro hEq
        rw [hEq, hNone] at hGet
        cases hGet
      simp only [opened, register, nextId, conns_insertPeer,
        conns_insertConn, get_insert_ne _ _ hId, update_apply, if_neg hId]
      exact ⟨hGet, hPeer⟩
  · exact h

variable {state : ConnState}

section

variable (h : s.Linked)
include h

variable {m' : TcpRelayManager} {relays' : List RelayTask}

theorem restate
    (state' : ConnState) (hGet : s.manager.conns.get id = some state) (hAlloc : state'.alloc = state.alloc) (hKnown : s.PeerKnown id state')
    (hConns : m'.conns.get = update s.manager.conns.get id (some state'))
    (hPeers : m'.allocPeers = s.manager.allocPeers)
    (hRelays : ∀ task ∈ relays', m'.conns.get task.id = some (.bound task.alloc) ∧ s.peerOf task.id = some task.peer)
    (hOnce : (relays'.map RelayTask.id).Nodup) : TcpTables.Linked { s with manager := m', relays := relays' } := by
  refine ⟨?_, fun id' other hOther => ?_, hRelays, hOnce⟩
  · have hView : TcpTables.listed { s with manager := m', relays := relays' } = s.listed := by
      funext id'
      simp only [listed, hConns, update_apply]
      by_cases hId : id' = id
      · simp [hId, hGet, hAlloc]
      · simp [hId]
    rw [hView]
    rw [hPeers]
    exact h.mirror
  · replace hOther : m'.conns.get id' = some other := hOther
    rw [hConns, update_apply] at hOther
    split at hOther
    · next hId =>
      cases hOther
      rw [hId]
      exact hKnown
    · exact h.known id' other hOther

theorem drop {state : ConnState} (hGet : s.manager.conns.get id = some state) (hPeer : s.peerOf id = some peer)
    (hConns : m'.conns.get = update s.manager.conns.get id none)
    (hPeers : m'.allocPeers = s.manager.allocPeers.remove (state.alloc, peer))
    (hRelays : ∀ task ∈ relays', task ∈ s.relays ∧ task.id ≠ id) (hOnce : (relays'.map RelayTask.id).Nodup) :
    TcpTables.Linked { s with manager := m', relays := relays' } := by
  have hListed : s.listed id = some (state.alloc, peer) := by simp [listed, hGet, hPeer]
  refine ⟨?_, fun id' other hOther => ?_, fun task hTask => ?_, hOnce⟩
  · have hView : TcpTables.listed { s with manager := m', relays := relays' } = update s.listed id none := by
      funext id'
      simp only [listed, hConns, update_apply]
      by_cases hId : id' = id <;> simp [hId]
    rw [hView]
    rw [hPeers, get_remove_eq_update]
    exact h.mirror.unlink hListed
  · replace hOther : m'.conns.get id' = some other := hOther
    rw [hConns, update_apply] at hOther
    split at hOther
    · cases hOther
    · exact h.known id' other hOther
  · obtain ⟨hIn, hNe⟩ := hRelays task hTask
    rw [hConns, update_of_ne hNe]
    exact h.relays task hIn

theorem of_gets (hConns : ∀ id, m'.conns.get id = s.manager.conns.get id)
    (hPeers : m'.allocPeers = s.manager.allocPeers) : TcpTables.Linked { s with manager := m' } := by
  refine ⟨?_, fun id state hGet => ?_, fun task hTask => ?_, h.once⟩
  · have hView : TcpTables.listed { s with manager := m' } = s.listed := by
      funext id
      simp only [listed, hConns]
    rw [hView]
    rw [hPeers]
    exact h.mirror
  · exact h.known id state ((hConns id).symm.trans hGet)
  · obtain ⟨hGet, hPeer⟩ := h.relays task hTask
    exact ⟨(hConns task.id).trans hGet, hPeer⟩

theorem not_relayed (hGet : s.manager.conns.get id = some state)
    (hNot : ∀ alloc, state ≠ .bound alloc) {task : RelayTask} (hTask : task ∈ s.relays) : task.id ≠ id := by
  rintro rfl
  obtain ⟨hBound, -⟩ := h.relays task hTask
  rw [hGet] at hBound
  exact hNot task.alloc (Option.some.inj hBound)

theorem claim (owner : Bytes) : (s.apply (.claim id owner)).Linked := by
  rcases s.manager.claim_cases id owner with ⟨e, -, hConns, hPeers, -⟩ | ⟨stream, p, a, hGet, hClaim⟩
  · exact h.of_gets hConns hPeers
  rw [apply, hClaim]
  refine h.restate (.claimed stream p a) hGet rfl (h.known id (.waitingForBind ..) hGet) ?_ rfl (fun task hTask => ?_) h.once
  · simp only [conns_insertConn, conns_removeConn, insert_remove,
      get_insert_eq_update]
  have hNe := h.not_relayed hGet (by simp) hTask
  simp only [conns_insertConn, conns_removeConn, insert_remove,
    get_insert_ne _ _ hNe]
  exact h.relays task hTask

theorem release : (s.apply (.release id)).Linked := by
  rw [apply, TcpRelayManager.release]
  split
  · next stream p a owner hGet =>
    refine h.drop hGet (h.known id _ hGet) ?_ rfl (fun task hTask => ⟨hTask, h.not_relayed hGet nofun hTask⟩) h.once
    exact get_remove_eq_update ..
  · next stream p a hGet =>
    refine h.drop hGet (h.known id _ hGet) ?_ rfl (fun task hTask => ⟨hTask, h.not_relayed hGet nofun hTask⟩) h.once
    exact get_remove_eq_update ..
  · next state _ _ hGet => exact h.of_gets (get_putBack hGet) rfl
  · next hGet =>
    refine h.of_gets (fun id' => ?_) rfl
    rw [conns_removeConn, remove_of_get_none hGet]

theorem attach : (s.apply (.attach id)).Linked := by
  rw [apply, attachBound]
  rcases s.manager.takeClaimed_cases id with ⟨e, hError, hConns, hPeers, -⟩ | ⟨stream, p, a, hGet, hTake⟩
  · obtain ⟨result, m', hTake⟩ : ∃ result m', s.manager.takeClaimed id = (result, m') := ⟨_, _, rfl⟩
    rw [hTake] at hError hConns hPeers ⊢
    replace hError : result = .error e := hError
    rw [hError]
    exact h.of_gets hConns hPeers
  · rw [hTake]
    refine h.restate (.bound a) hGet rfl ⟨p, h.known id _ hGet⟩ ?_ rfl (fun task hTask => ?_) ?_
    · simp only [conns_insertConn, conns_removeConn, insert_remove,
        get_insert_eq_update]
    · simp only [conns_insertConn, conns_removeConn, insert_remove]
      rcases mem_cons.mp hTask with rfl | hTask
      · exact ⟨get_insert_self .., h.known id _ hGet⟩
      · rw [get_insert_ne _ _ (h.not_relayed hGet (by simp) hTask)]
        exact h.relays task hTask
    · rw [map_cons, nodup_cons]
      refine ⟨fun hIn => ?_, h.once⟩
      obtain ⟨task, hTask, hEq⟩ := mem_map.mp hIn
      exact h.not_relayed hGet (by simp) hTask hEq

theorem relayEnd (task : RelayTask) : (s.apply (.relayEnd task)).Linked := by
  rw [apply]
  split
  · next hTask =>
    obtain ⟨hGet, hPeer⟩ := h.relays task hTask
    refine h.drop hGet hPeer (get_remove_eq_update ..) rfl (fun other hOther => ?_) ?_
    · refine ⟨mem_of_mem_erase hOther, fun hId => ?_⟩
      have hEq := inj_on_of_nodup_map h.once (mem_of_mem_erase hOther) hTask hId
      rw [hEq] at hOther
      exact (List.Nodup.of_map _ h.once).not_mem_erase hOther
    · exact h.once.sublist (erase_sublist.map _)
  · exact h

theorem cleanup (hNone : ∀ id state, s.manager.conns.get id = some state → state.alloc ≠ alloc) :
    (s.apply (.cleanup alloc)).Linked := by
  have hIds : s.manager.idsOf alloc = [] := by
    refine eq_nil_iff_forall_not_mem.mpr fun id hIn => ?_
    obtain ⟨state, hGet, hAlloc⟩ := mem_idsOf.mp hIn
    exact hNone id state hGet hAlloc
  rw [apply, cleanupAllocation, hIds]
  exact h.of_gets (fun _ => rfl) rfl

theorem step {op : TcpOp} (hGood : s.Good op) : (s.apply op).Linked := by
  cases op with
  | connect r stream =>
    rw [apply_connect]
    exact h.opening hGood
  | incoming r stream =>
    rw [apply_incoming]
    exact h.opening hGood
  | claim id owner => exact h.claim owner
  | release id | idleTimeout id => exact h.release
  | attach id => exact h.attach
  | relayEnd task => exact h.relayEnd task
  | cleanup alloc => exact h.cleanup hGood

end

/-! ## Where the tables come apart -/

theorem fresh_of_agree (h : s.Linked) (hAfter : (s.opening r stream).Agree)
    (hRoom : s.manager.full = false) (hNew : s.manager.duplicate r = none) :
    s.manager.conns.get s.manager.counter = none := by
  cases hGet : s.manager.conns.get s.manager.counter with
  | none => rfl
  | some state =>
    exfalso
    obtain ⟨p, -, hListed⟩ := h.listed_of_get hGet
    have hIndex := (h.mirror (state.alloc, p) s.manager.counter).mpr hListed
    have hNe : (state.alloc, p) ≠ (r.alloc, r.peer) := by
      intro hEq
      rw [hEq] at hIndex
      cases hIndex.symm.trans hNew
    rw [TcpTables.opening, if_pos ⟨hRoom, hNew⟩] at hAfter
    have hStill := (hAfter.index state.alloc p s.manager.counter).mp ((get_insert_ne _ _ hNe).trans hIndex)
    simp only [Holds, opened, register, nextId, conns_insertPeer,
      conns_insertConn, get_insert_self] at hStill
    exact hNe (by rw [hStill.1, hStill.2])

theorem unused_of_agree (h : s.Linked) (hAfter : (s.apply (.cleanup alloc)).Agree)
    (hGet : s.manager.conns.get id = some state) : state.alloc ≠ alloc := by
  intro hAlloc
  obtain ⟨p, -, hListed⟩ := h.listed_of_get hGet
  have hIndex := (h.mirror (state.alloc, p) id).mpr hListed
  have hStill := (hAfter.index state.alloc p id).mp hIndex
  have hGone : (s.apply (.cleanup alloc)).manager.conns.get id = none := by
    show ((s.manager.idsOf alloc).foldl remove s.manager.conns).get id = none
    rw [get_foldl_remove, if_pos (mem_idsOf.mpr ⟨state, hGet, hAlloc⟩)]
  rw [Holds, hGone] at hStill
  exact hStill

theorem good_of_agree (h : s.Linked) {op : TcpOp} (hAfter : (s.apply op).Agree) : s.Good op := by
  cases op with
  | connect r stream =>
    rw [apply_connect] at hAfter
    exact h.fresh_of_agree hAfter
  | incoming r stream =>
    rw [apply_incoming] at hAfter
    exact h.fresh_of_agree hAfter
  | cleanup alloc => exact fun id state hGet => h.unused_of_agree hAfter hGet
  | _ => trivial

end TcpTables.Linked

theorem TcpTables.linked_new (config : TcpRelayConfig) : (TcpTables.new config).Linked :=
  ⟨fun _ _ => ⟨nofun, nofun⟩, nofun, nofun, nodup_nil⟩

end Agreement

/-- Exactly if new ids are not in use and allocations are cleaned up only when they have no connection. -/
theorem tables_agree_iff (config : TcpRelayConfig) (ops : List TcpOp) :
    (∀ pre, pre <+: ops → (Trace.run TcpTables.apply (.new config) pre).Agree) ↔
      Trace.Allowed TcpTables.apply TcpTables.Good (.new config) ops := by
  have hAny : Trace.Allowed TcpTables.apply (fun _ _ => True) (.new config) ops :=
    Trace.allowed_iff_forall.mpr fun _ _ => trivial
  exact hAny.prefixes_iff (I := TcpTables.Linked) (fun s hLinked => hLinked.agree)
    (fun s op hLinked _ hAfter => hLinked.good_of_agree hAfter) (fun s op hLinked _ hGood => hLinked.step hGood)
    (TcpTables.linked_new config)

/-- After a cleanup a new client on the same port cannot connect to a peer of the old one. -/
theorem cleanup_blocks_peer :
    let r : PeerRequest := ⟨50000, .v4 ⟨198, 51, 100, 1⟩ 80, [1]⟩
    let s := Trace.run TcpTables.apply (.new ⟨10, 50000⟩) [.connect r 1, .cleanup 50000]
    s.manager.allocPeers.get (r.alloc, r.peer) = some 1 ∧ s.manager.conns.get 1 = none ∧
      (s.manager.handleConnect { r with owner := [2] } (.connected 2)).1 = .error (.alreadyExists r.peer 1) := by
  decide +kernel

end Turna.Relay
