import Turna.Session.Effects

/-! # The allocation table as an abstract machine

Seen from the relay, the store is a table of allocations with an index by relay address and by id, and
the books of finished allocations. Every operation is a short run of events on that table: an
allocation is opened, edited, metered, moved or closed.
-/

namespace Turna.Session
open Lib Net HashMap List AllocationStore

namespace Allocation

variable (alloc : Allocation) (now : Nat)

def hasPermission (peer : SocketAddr) : Bool := (alloc.permissions.get peer.ip).any (fun p => !p.isExpired now)

def getChannelPeer (channel : UInt16) : Option SocketAddr :=
  ((alloc.channelBindings.get channel).filter (fun b => !b.isExpired now)).map ChannelBinding.peerAddr

def getPeerChannel (peer : SocketAddr) : Option UInt16 :=
  (alloc.channelsReverse.get peer).filter (fun ch => (alloc.channelBindings.get ch).any (fun b => !b.isExpired now))

def addBytes (n : Nat) : Allocation :=
  { alloc with
    bytesRelayed := alloc.bytesRelayed + UInt64.ofNat n
    packetsRelayed := alloc.packetsRelayed + 1 }

def addBytesToClient (n : Nat) : Allocation :=
  { alloc.addBytes n with
    bytesToClient := alloc.bytesToClient + UInt64.ofNat n
    packetsToClient := alloc.packetsToClient + 1 }

end Allocation

namespace AllocationStore

variable (s : AllocationStore)

def meter (clientAddr : SocketAddr) (alloc : Allocation) : AllocationStore :=
  { s with allocations := s.allocations.insert clientAddr alloc }

def bandwidthPolicyForUser (realm : String) (tenantId : Option String) (username : String) : Nat × Bool :=
  let effective := s.effectiveUserLimits realm tenantId username
  (effective.maxBytesPerSecPerAllocation, effective.bandwidthDisabled)

def lifetimePolicyForUser (realm : String) (tenantId : Option String) (username : String) : Nat × Bool :=
  let effective := s.effectiveUserLimits realm tenantId username
  (effective.maxLifetimeSecs, effective.lifetimeDisabled)

end AllocationStore

/-! ## Calls on a pool

`bindOk k` tells whether the `k`-th attempt to bind a socket succeeds, `token k` is the token drawn in
the `k`-th round.
-/

namespace PortAllocator

variable (bindOk : Nat → Bool)

def allocateAndBind : (rounds : Nat) → (pool : PortAllocator) → Option UInt16 × PortAllocator
  | 0, pool => (none, pool)
  | rounds + 1, pool =>
    match pool.allocate with
    | (.error _, pool) => (none, pool)
    | (.ok port, pool) => if bindOk rounds then (some port, pool) else allocateAndBind rounds (pool.release port)

/-- An even port in one round, with its token if the next port is reserved too. -/
def drawEven (now : Nat) (reserveNext : Bool) (token : Token) (pool : PortAllocator) :
    Option (UInt16 × Option Token) × PortAllocator :=
  if reserveNext then
    match pool.allocateEvenWithReservation now token with
    | (some (even, token), pool) => (some (even, some token), pool)
    | (none, pool) => (none, pool)
  else
    match pool.allocateEven with
    | (some even, pool) => (some (even, none), pool)
    | (none, pool) => (none, pool)

def cancelReservation (pool : PortAllocator) (token : Token) : PortAllocator :=
  match pool.takeReservation token with
  | (some port, pool) => pool.release port
  | (none, pool) => pool

def allocateEvenAndBind (now : Nat) (token : Nat → Token) (reserveNext : Bool) :
    (rounds : Nat) → (pool : PortAllocator) → Option (UInt16 × Option Token) × PortAllocator
  | 0, pool => (none, pool)
  | rounds + 1, pool =>
    match drawEven now reserveNext (token rounds) pool with
    | (none, pool) => (none, pool)
    | (some (even, drawn), pool) =>
      if bindOk rounds then (some (even, drawn), pool)
      else
        let pool := pool.release even
        allocateEvenAndBind now token reserveNext rounds ((drawn.map pool.cancelReservation).getD pool)

def claimReservation (now : Nat) (token : Token) (pool : PortAllocator) : Option UInt16 × PortAllocator :=
  (pool.sweepExpiredReservations now).2.takeReservation token

def claimAndBind (now : Nat) (token : Token) (pool : PortAllocator) : Option UInt16 × PortAllocator :=
  match pool.claimReservation now token with
  | (none, pool) => (none, pool)
  | (some port, pool) => if bindOk 0 then (some port, pool) else (none, pool.release port)

def bindRounds : Nat := 64

end PortAllocator

/-! ## The allocation table as an abstract machine -/

structure Meters where
  bytesRelayed : UInt64
  packetsRelayed : UInt64
  bytesToClient : UInt64
  packetsToClient : UInt64
  deriving DecidableEq

def Allocation.meters (a : Allocation) : Meters :=
  ⟨a.bytesRelayed, a.packetsRelayed, a.bytesToClient, a.packetsToClient⟩

def Allocation.metered (a : Allocation) (n : Nat) (toClient : Bool) : Allocation :=
  if toClient then a.addBytesToClient n else a.addBytes n

structure Books where
  usageTx : Option (Channel UsageRecord)
  usageDropped : UInt64
  tenantTraffic : HashMap String TenantTraffic

def AllocationStore.books (s : AllocationStore) : Books := ⟨s.usageTx, s.usageDropped, s.tenantTraffic⟩

namespace Books

def accrue (b : Books) (a : Allocation) : Books :=
  match a.tenantId with
  | none => b
  | some tenant =>
    let e := (b.tenantTraffic.get tenant).getD ⟨0, 0, 0⟩
    { b with
      tenantTraffic := b.tenantTraffic.insert tenant
        ⟨saturatingAdd e.bytes a.bytesRelayed, saturatingAdd e.packets a.packetsRelayed,
          saturatingAdd e.closedAllocations 1⟩ }

def emit (b : Books) (record : UsageRecord) : Books :=
  match b.usageTx with
  | none => b
  | some tx =>
    match tx.trySend record with
    | (.ok, tx) => { b with usageTx := some tx }
    | (_, _) => { b with usageDropped := b.usageDropped + 1 }

def close (b : Books) (a : Allocation) (reason : UsageEndReason) (epochMs : Nat) : Books :=
  (b.accrue a).emit (.fromAllocation a .stop (some reason) epochMs)

end Books

theorem books_accrueTenantTraffic (s : AllocationStore) (a : Allocation) :
    (s.accrueTenantTraffic a).books = s.books.accrue a := by
  rw [accrueTenantTraffic, Books.accrue]
  cases a.tenantId <;> rfl

theorem books_emitUsageStop (s : AllocationStore) (a : Allocation) (reason : UsageEndReason) (epochMs : Nat) :
    (s.emitUsageStop a reason epochMs).books = s.books.emit (.fromAllocation a .stop (some reason) epochMs) := by
  rw [emitUsageStop, Books.emit, show s.books.usageTx = s.usageTx from rfl]
  cases hTx : s.usageTx with
  | none => rfl
  | some tx =>
    dsimp only
    generalize tx.trySend _ = r
    obtain ⟨result, tx'⟩ := r
    cases result <;> simp [books, hTx]

inductive BookStmt where
  | accrue (a : Allocation)
  | stop (a : Allocation) (reason : UsageEndReason) (epochMs : Nat)

def Stmt.book? : Stmt → Option BookStmt
  | .accrueTenantTraffic a => some (.accrue a)
  | .emitUsageStop a reason epochMs => some (.stop a reason epochMs)
  | _ => none

def BookStmt.exec (b : Books) : BookStmt → Books
  | .accrue a => b.accrue a
  | .stop a reason epochMs => b.emit (.fromAllocation a .stop (some reason) epochMs)

theorem books_emitWrite (s : AllocationStore) (op : WriteOp) : (s.emitWrite op).books = s.books := by
  rw [emitWrite]
  split
  · rfl
  · split <;> rfl

theorem books_updatePool (s : AllocationStore) (f : PortAllocator → PortAllocator) (id : AllocationStore.PoolId) :
    (s.updatePool f id).books = s.books := by
  cases id <;> rfl

theorem books_runScript (s : AllocationStore) (script : List Stmt) :
    (s.runScript script).books = (script.filterMap Stmt.book?).foldl BookStmt.exec s.books := by
  refine runScript_fold s books Stmt.book? BookStmt.exec (fun s stmt => ?_) script
  cases stmt with
  | accrueTenantTraffic a => exact books_accrueTenantTraffic s a
  | emitUsageStop a reason epochMs => exact books_emitUsageStop s a reason epochMs
  | releasePort port => exact books_updatePool s _ _
  | emitWrite op => exact books_emitWrite s op
  | _ => rfl

theorem book_removeScript (order : IterOrder) (epochMs now : Nat) (c r : SocketAddr) (a : Allocation) :
    (removeScript order epochMs now c r a).filterMap Stmt.book? =
      [.accrue a, .stop a (if a.isExpired now then .expired else .released) epochMs] := by
  simp only [removeScript, onAllocationClosed, filterMap_append, filterMap_releaseCounters, filterMap_map,
    Function.comp_def, filterMap_cons, filterMap_nil, Stmt.book?]
  simp

theorem book_forceRemoveScript (order : IterOrder) (epochMs : Nat) (c : SocketAddr) (a : Allocation) :
    (forceRemoveScript order epochMs c a).filterMap Stmt.book? = [.accrue a, .stop a .adminDeleted epochMs] := by
  simp only [forceRemoveScript, onAllocationClosed, filterMap_append, filterMap_releaseCounters, filterMap_map,
    Function.comp_def, filterMap_cons, filterMap_nil, Stmt.book?]
  simp

/-! ## Events -/

structure SameTables (s s' : AllocationStore) : Prop where
  allocations : s'.allocations = s.allocations
  relayToClient : s'.relayToClient = s.relayToClient
  idToClient : s'.idToClient = s.idToClient
  books : s'.books = s.books

namespace SameTables

variable {s s' s'' : AllocationStore}

theorem refl (s : AllocationStore) : SameTables s s := ⟨rfl, rfl, rfl, rfl⟩

theorem trans (h : SameTables s s') (h' : SameTables s' s'') : SameTables s s'' :=
  ⟨h'.allocations.trans h.allocations, h'.relayToClient.trans h.relayToClient, h'.idToClient.trans h.idToClient,
    h'.books.trans h.books⟩

theorem emitWrite (s : AllocationStore) (op : WriteOp) : SameTables s (s.emitWrite op) :=
  have h := sameIndex_emitWrite s op
  ⟨h.allocations, h.relayToClient, h.idToClient, books_emitWrite s op⟩

theorem updatePool (s : AllocationStore) (f : PortAllocator → PortAllocator) (id : AllocationStore.PoolId) :
    SameTables s (s.updatePool f id) :=
  have h := sameIndex_updatePool s f id
  ⟨h.allocations, h.relayToClient, h.idToClient, books_updatePool s f id⟩

theorem mintId (s : AllocationStore) : SameTables s s.mintId.2 := ⟨rfl, rfl, rfl, rfl⟩

theorem recount {key : UserKey} {g t u : Int} (h : Recount s s' key g t u) : SameTables s s' := by
  constructor <;> rw [h.frame]
  rfl

theorem setTables (h : SameTables s s') (f : HashMap SocketAddr Allocation → HashMap SocketAddr Allocation)
    (g : HashMap SocketAddr SocketAddr → HashMap SocketAddr SocketAddr)
    (k : HashMap String SocketAddr → HashMap String SocketAddr) :
    SameTables
      { s with
        allocations := f s.allocations
        relayToClient := g s.relayToClient
        idToClient := k s.idToClient }
      { s' with
        allocations := f s'.allocations
        relayToClient := g s'.relayToClient
        idToClient := k s'.idToClient } :=
  ⟨congrArg f h.allocations, congrArg g h.relayToClient, congrArg k h.idToClient, h.books⟩

theorem setAllocations (h : SameTables s s') (f : HashMap SocketAddr Allocation → HashMap SocketAddr Allocation) :
    SameTables { s with allocations := f s.allocations } { s' with allocations := f s'.allocations } :=
  h.setTables f id id

theorem setSink (h : SameTables s s') (tx : Option (Channel UsageRecord)) :
    SameTables { s with usageTx := tx } { s' with usageTx := tx } :=
  ⟨h.allocations, h.relayToClient, h.idToClient, congrArg (fun b : Books => { b with usageTx := tx }) h.books⟩

end SameTables

inductive TableEvent where
  | quiet
  | edit (c : SocketAddr)
  | meter (c : SocketAddr) (n : Nat) (toClient : Bool)
  | opened (a : Allocation)
  | closed (c : SocketAddr) (a : Allocation) (reason : UsageEndReason) (epochMs : Nat)
  | moved (oldAddr newAddr : SocketAddr)
  | sink (tx : Option (Channel UsageRecord))

inductive TableStep : TableEvent → AllocationStore → AllocationStore → Prop where
  | quiet {s s' : AllocationStore} (h : SameTables s s') : TableStep .quiet s s'
  | edit {s s' : AllocationStore} {c : SocketAddr} {a a' : Allocation} (hGet : s.get c = some a)
      (h : SameTables { s with allocations := s.allocations.insert c a' } s') (hSame : SameOwner a a')
      (hClient : a'.clientAddr = a.clientAddr ∨ a'.clientAddr = c) (hMeters : a'.meters = a.meters)
      (hEpoch : a'.migrationEpoch = a.migrationEpoch) : TableStep (.edit c) s s'
  | meter {s s' : AllocationStore} {c : SocketAddr} {a : Allocation} {n : Nat} {toClient : Bool}
      (hGet : s.get c = some a)
      (h : SameTables { s with allocations := s.allocations.insert c (a.metered n toClient) } s') :
      TableStep (.meter c n toClient) s s'
  | opened {s s' : AllocationStore} {a : Allocation} (hVacant : s.get a.clientAddr = none)
      (hFresh : a.meters = ⟨0, 0, 0, 0⟩)
      (h : SameTables
        { s with
          allocations := s.allocations.insert a.clientAddr a
          relayToClient := s.relayToClient.insert a.relayAddr a.clientAddr
          idToClient := s.idToClient.insert a.allocationId a.clientAddr } s') :
      TableStep (.opened a) s s'
  | closed {s s' : AllocationStore} {c : SocketAddr} {a : Allocation} {reason : UsageEndReason} {epochMs : Nat}
      (hGet : s.get c = some a) (hAllocations : s'.allocations = s.allocations.remove c)
      (hRelay : s'.relayToClient = s.relayToClient.remove a.relayAddr)
      (hId : s'.idToClient = s.idToClient.remove a.allocationId) (hBooks : s'.books = s.books.close a reason epochMs) :
      TableStep (.closed c a reason epochMs) s s'
  | moved {s s' : AllocationStore} {oldAddr newAddr : SocketAddr} {a : Allocation} (hGet : s.get oldAddr = some a)
      (hVacant : s.get newAddr = none)
      (h : SameTables
        { s with
          allocations := (s.allocations.remove oldAddr).insert newAddr
            { a with clientAddr := newAddr, migrationEpoch := a.migrationEpoch + 1 }
          relayToClient := s.relayToClient.insert a.relayAddr newAddr
          idToClient := s.idToClient.insert a.allocationId newAddr } s') :
      TableStep (.moved oldAddr newAddr) s s'
  | sink {s s' : AllocationStore} {tx : Option (Channel UsageRecord)} (h : SameTables { s with usageTx := tx } s') :
      TableStep (.sink tx) s s'

variable {e : TableEvent} {s s' s'' : AllocationStore}

theorem TableStep.same (h : TableStep e s s') (hSame : SameTables s' s'') : TableStep e s s'' := by
  cases h with
  | quiet h => exact .quiet (h.trans hSame)
  | edit hGet h hOwner hClient hMeters hEpoch => exact .edit hGet (h.trans hSame) hOwner hClient hMeters hEpoch
  | meter hGet h => exact .meter hGet (h.trans hSame)
  | opened hVacant hFresh h => exact .opened hVacant hFresh (h.trans hSame)
  | closed hGet hAllocations hRelay hId hBooks =>
    exact .closed hGet (hSame.allocations.trans hAllocations) (hSame.relayToClient.trans hRelay)
      (hSame.idToClient.trans hId) (hSame.books.trans hBooks)
  | moved hGet hVacant h => exact .moved hGet hVacant (h.trans hSame)
  | sink h => exact .sink (h.trans hSame)

theorem TableStep.of_same (hSame : SameTables s s') (h : TableStep e s' s'') : TableStep e s s'' := by
  have hGet (c : SocketAddr) : s'.get c = s.get c := by rw [AllocationStore.get, hSame.allocations, AllocationStore.get]
  cases h with
  | quiet h => exact .quiet (hSame.trans h)
  | @edit _ _ c _ a' hThere h hOwner hClient hMeters hEpoch =>
    exact .edit ((hGet c).symm.trans hThere) ((hSame.setAllocations (·.insert c a')).trans h) hOwner hClient hMeters hEpoch
  | meter hThere h => exact .meter ((hGet _).symm.trans hThere) ((hSame.setAllocations (·.insert _ _)).trans h)
  | opened hVacant hFresh h =>
    exact .opened ((hGet _).symm.trans hVacant) hFresh
      ((hSame.setTables (·.insert _ _) (·.insert _ _) (·.insert _ _)).trans h)
  | closed hThere hAllocations hRelay hId hBooks =>
    refine .closed ((hGet _).symm.trans hThere) ?_ ?_ ?_ ?_
    · rw [hAllocations, hSame.allocations]
    · rw [hRelay, hSame.relayToClient]
    · rw [hId, hSame.idToClient]
    · rw [hBooks, hSame.books]
  | moved hThere hVacant h =>
    exact .moved ((hGet _).symm.trans hThere) ((hGet _).symm.trans hVacant)
      ((hSame.setTables (fun m => (m.remove _).insert _ _) (·.insert _ _) (·.insert _ _)).trans h)
  | sink h => exact .sink ((hSame.setSink _).trans h)

theorem TableStep.write (h : TableStep e s s') (op : WriteOp) : TableStep e s (s'.emitWrite op) :=
  h.same (.emitWrite s' op)

inductive TableRun : List TableEvent → AllocationStore → AllocationStore → Prop where
  | nil (s : AllocationStore) : TableRun [] s s
  | cons {e : TableEvent} {es : List TableEvent} {s s' s'' : AllocationStore} (h : TableStep e s s')
      (hRest : TableRun es s' s'') : TableRun (e :: es) s s''

theorem TableRun.single (h : TableStep e s s') : TableRun [e] s s' := .cons h (.nil s')

variable {es : List TableEvent}

theorem TableRun.append {es' : List TableEvent} (h : TableRun es s s')
    (h' : TableRun es' s' s'') : TableRun (es ++ es') s s'' := by
  induction h with
  | nil => exact h'
  | cons hStep _ ih => exact .cons hStep (ih h')

theorem TableRun.invariant (I : AllocationStore → Prop) (hStep : ∀ e s s', TableStep e s s' → I s → I s')
    (h : TableRun es s s') (hInit : I s) : I s' := by
  induction h with
  | nil => exact hInit
  | cons hFirst _ ih => exact ih (hStep _ _ _ hFirst hInit)

/-! ## The operations as events -/

section Operations

variable (s : AllocationStore) (order : IterOrder) (clock : Clock)

variable {c : SocketAddr} {a : Allocation}

section

variable (hGet : s.get c = some a)
include hGet

theorem closed_of_teardown {script : List Stmt} {reason : UsageEndReason}
    {epochMs : Nat} (hTeardown : IsTeardown script a c a.relayAddr)
    (hBook : script.filterMap Stmt.book? = [.accrue a, .stop a reason epochMs]) :
    TableStep (.closed c a reason epochMs) s ({ s with allocations := s.allocations.remove c }.runScript script) := by
  refine .closed hGet (runScript_allocations _ _) ?_ ?_ ?_
  · rw [runScript_relayToClient, hTeardown.relays]
    rfl
  · rw [runScript_idToClient, hTeardown.ids]
    rfl
  · rw [books_runScript, hBook]
    rfl

theorem remove_event :
    ∃ reason, TableStep (.closed c a reason clock.epochMs) s (s.remove order clock c a.relayAddr).2 := by
  rw [AllocationStore.remove, show s.allocations.get c = some a from hGet]
  exact ⟨_, closed_of_teardown s hGet (removeScript_isTeardown ..) (book_removeScript ..)⟩

theorem forceRemove_event : TableStep (.closed c a .adminDeleted clock.epochMs) s (s.forceRemove order clock c) := by
  rw [forceRemove, show s.allocations.get c = some a from hGet]
  exact closed_of_teardown s hGet (forceRemoveScript_isTeardown ..) (book_forceRemoveScript ..)

theorem refresh_closed : ∃ reason, TableStep (.closed c a reason clock.epochMs) s (s.refresh order clock c 0).2 := by
  rw [refresh, show s.allocations.get c = some a from hGet]
  exact remove_event s order clock hGet

theorem refresh_edit {lifetime : UInt32}
    (hLifetime : lifetime ≠ 0) : TableStep (.edit c) s (s.refresh order clock c lifetime).2 := by
  -- The time is kept a variable: the kernel must not compute with nanoseconds.
  have hEdit (t : Nat) : TableStep (.edit c) s
      { s with allocations := s.allocations.insert c { a with expiresAt := t } } :=
    .edit hGet (.refl _) ⟨rfl, rfl, rfl, rfl, rfl⟩ (.inl rfl) rfl rfl
  rw [refresh, show s.allocations.get c = some a from hGet]
  dsimp only
  rw [if_neg hLifetime]
  exact (hEdit _).write _

theorem setTransport_event (transport : TransportProto) : TableStep (.edit c) s (s.setTransport c transport).2 := by
  rw [setTransport, show s.allocations.get c = some a from hGet]
  exact .edit hGet (.refl _) ⟨rfl, rfl, rfl, rfl, rfl⟩ (.inl rfl) rfl rfl

end

theorem addPermission_event (c : SocketAddr) (peerIp : IpAddr) :
    TableStep (.edit c) s (s.addPermission clock c peerIp).2 ∨ (s.addPermission clock c peerIp).2 = s := by
  rw [addPermission]
  split
  · exact .inr rfl
  next a hGet =>
  split
  · exact .inr rfl
  · refine .inl (.write ?_ _)
    exact .edit hGet (.refl _) ⟨rfl, rfl, rfl, rfl, rfl⟩ (.inl rfl) rfl rfl

theorem addChannel_event (c : SocketAddr) (channel : UInt16) (peerAddr : SocketAddr) :
    TableStep (.edit c) s (s.addChannel clock c channel peerAddr).2 ∨
      (s.addChannel clock c channel peerAddr).2 = s := by
  rw [addChannel]
  split
  · exact .inr rfl
  next a hGet =>
  split
  · exact .inr rfl
  split
  · exact .inr rfl
  split
  · exact .inr rfl
  refine .inl (.write (.write ?_ _) _)
  obtain ⟨_, _, hBind⟩ := bindChannel_eq a clock.now channel peerAddr
  rw [hBind]
  exact .edit hGet ⟨rfl, rfl, rfl, rfl⟩ ⟨rfl, rfl, rfl, rfl, rfl⟩ (.inl rfl) rfl rfl

variable {oldAddr newAddr : SocketAddr}

theorem reKey_event (hGet : s.get oldAddr = some a) (hVacant : s.get newAddr = none) :
    TableStep (.moved oldAddr newAddr) s (s.reKey order clock oldAddr newAddr).2 := by
  have hNe : oldAddr ≠ newAddr := by
    rintro rfl
    rw [hGet] at hVacant
    cases hVacant
  have hGone : (s.allocations.remove oldAddr).get newAddr = none := by
    rw [get_remove_ne _ hNe.symm]
    exact hVacant
  rw [reKey, if_neg hNe, show s.allocations.get oldAddr = some a from hGet]
  dsimp only
  rw [hGone]
  refine .write ?_ _
  exact .moved hGet hVacant ⟨rfl, rfl, rfl, rfl⟩

theorem reKey_taken {b : Allocation} (hNe : oldAddr ≠ newAddr)
    (hGet : s.get oldAddr = some a) (hTaken : s.get newAddr = some b) :
    TableStep (.edit oldAddr) s (s.reKey order clock oldAddr newAddr).2 := by
  have hThere : (s.allocations.remove oldAddr).get newAddr = some b := by
    rw [get_remove_ne _ hNe.symm]
    exact hTaken
  rw [reKey, if_neg hNe, show s.allocations.get oldAddr = some a from hGet]
  dsimp only
  rw [hThere]
  rw [get_remove_self, insert_remove]
  exact .edit hGet (.refl _) ⟨rfl, rfl, rfl, rfl, rfl⟩ (.inr rfl) rfl rfl

theorem create_event (req : CreateRequest) : if (s.createForIdentity clock req).1 = .ok () then
      s.get req.clientAddr = none ∧
        TableStep (.opened (req.allocation clock s.mintId.1)) s (s.createForIdentity clock req).2
    else SameTables s (s.createForIdentity clock req).2 := by
  have hOutcome := create_outcome s clock req
  generalize s.createForIdentity clock req = r at hOutcome
  cases hOutcome with
  | refused _ hSame =>
    rw [if_neg nofun]
    exact .recount hSame
  | taken _ _ hSame =>
    rw [if_neg nofun]
    exact (SameTables.mintId s).trans (.recount hSame)
  | @created s' _ hVacant hCharge =>
    rw [if_pos rfl]
    refine ⟨hVacant, .opened hVacant rfl (.trans ?_ (.emitWrite _ _))⟩
    have hTables := SameTables.recount hCharge
    refine ⟨?_, ?_, ?_, hTables.books⟩
    · rw [publish, hTables.allocations]
      rfl
    · rw [publish, hTables.relayToClient]
      rfl
    · rw [publish, hTables.idToClient]
      rfl

theorem rehydrate_event (row : RehydrateRow) : if (s.rehydrate order clock row).1 = .ok true then
      s.get row.clientAddr = none ∧ TableStep (.opened (row.restored s clock)) s (s.rehydrate order clock row).2
    else SameTables s (s.rehydrate order clock row).2 := by
  have hOutcome := rehydrate_outcome s order clock row
  have hId : SameTables s (s.restoredId row.allocationId).2 := by
    rw [restoredId]
    split
    · exact .mintId s
    · exact .refl s
  generalize s.rehydrate order clock row = r at hOutcome
  cases hOutcome with
  | expired =>
    rw [if_neg (by rintro ⟨⟩)]
    exact .refl s
  | refused hSame =>
    rw [if_neg (by rintro ⟨⟩)]
    exact .recount hSame
  | taken _ hSame =>
    rw [if_neg (by rintro ⟨⟩)]
    exact hId.trans (.recount hSame)
  | @restored s' _ _ hVacant hCharge =>
    rw [if_pos rfl]
    have hPrepared : SameTables s (row.prepared s) := by
      rw [RehydrateRow.prepared, restoredId_updatePool]
      dsimp only
      exact hId.trans (.updatePool _ _ _)
    have hTables := hPrepared.trans (.recount hCharge)
    refine ⟨hVacant, .opened hVacant rfl ⟨?_, ?_, ?_, hTables.books⟩⟩
    · rw [publish, hTables.allocations]
    · rw [publish, hTables.relayToClient]
    · rw [publish, hTables.idToClient]

/-! ### The expiry sweep -/

def TableEvent.isClosed : TableEvent → Bool
  | .closed _ _ _ _ => true
  | _ => false

theorem live_of_mem_toClean {sweep : SweepClock} {maxOps : Nat}
    (h : c ∈ (s.classified order sweep maxOps).toClean) :
    ∃ a, s.get c = some a ∧ a.isExpired (sweep.classify c) = false := by
  obtain ⟨cs, -, hLive, hEq⟩ := (foldl_classify sweep.classify maxOps (order.visit s.allocations.entries) ⟨[], []⟩).2
  rw [classified, hEq, nil_append] at h
  obtain ⟨a, hIn, hNot⟩ := hLive c h
  exact ⟨a, mem_entries_iff.mp (order.mem_visit.mp hIn), hNot⟩

theorem pruneEntries_event (now : SocketAddr → Nat) (c : SocketAddr) :
    TableStep (.edit c) s (s.pruneEntries order now c) ∨ s.pruneEntries order now c = s := by
  rw [pruneEntries]
  split
  · exact .inr rfl
  · next a hGet => exact .inl (.edit hGet (.refl _) ⟨rfl, rfl, rfl, rfl, rfl⟩ (.inl rfl) rfl rfl)

theorem prune_events (now : SocketAddr → Nat) (cs : List SocketAddr) :
    ∃ es, TableRun es s (cs.foldl (fun s c => s.pruneEntries order now c) s) ∧ ∀ e ∈ es, ∃ c ∈ cs, e = .edit c := by
  induction cs generalizing s with
  | nil => exact ⟨[], .nil s, by simp⟩
  | cons c cs ih =>
    obtain ⟨es, hRun, hEdits⟩ := ih (s.pruneEntries order now c)
    have hRest : ∀ e ∈ es, ∃ c' ∈ c :: cs, e = .edit c' := fun e he => by
      obtain ⟨c', hIn, hEq⟩ := hEdits e he
      exact ⟨c', mem_cons_of_mem _ hIn, hEq⟩
    rw [foldl_cons]
    obtain hStep | hSame := pruneEntries_event s order now c
    · refine ⟨.edit c :: es, .cons hStep hRun, ?_⟩
      rintro e (_ | ⟨_, he⟩)
      · exact ⟨c, mem_cons_self, rfl⟩
      · exact hRest e he
    · rw [hSame] at hRun ⊢
      exact ⟨es, hRun, hRest⟩

theorem relayAddr_of_edits {s s' : AllocationStore} {es : List TableEvent} (h : TableRun es s s')
    (hEdits : ∀ e ∈ es, ∃ c, e = .edit c) {a' : Allocation} (hGet : s'.get c = some a') :
    ∃ a, s.get c = some a ∧ a.relayAddr = a'.relayAddr := by
  induction h with
  | nil => exact ⟨a', hGet, rfl⟩
  | @cons e es s s₁ s' hStep _ ih =>
    obtain ⟨a₁, hGet₁, hRelay₁⟩ := ih (fun e' h' => hEdits e' (mem_cons_of_mem _ h')) hGet
    obtain ⟨c₀, rfl⟩ := hEdits e mem_cons_self
    cases hStep with
    | @edit _ _ _ a a₂ hGet₀ hSame hOwner =>
      rw [AllocationStore.get, hSame.allocations] at hGet₁
      obtain ⟨rfl, rfl⟩ | hOld := get_insert_cases hGet₁
      · exact ⟨a, hGet₀, hOwner.relayAddr.symm.trans hRelay₁⟩
      · exact ⟨a₁, hOld, hRelay₁⟩

theorem removeExpired_events (sweep : SweepClock) (pairs : List (SocketAddr × SocketAddr)) (n : Nat)
    (hOwn : ∀ e ∈ pairs, ∀ a, s.get e.1 = some a → a.relayAddr = e.2) :
    ∃ es, TableRun es s (pairs.foldl (AllocationStore.removeExpired order sweep) (n, s)).2 ∧
      (∀ e ∈ es, e.isClosed = true) ∧
      (pairs.foldl (AllocationStore.removeExpired order sweep) (n, s)).1 = n + es.length := by
  induction pairs generalizing n s with
  | nil => exact ⟨[], .nil s, by simp, rfl⟩
  | cons e pairs ih =>
    have hRest := fun e' hIn => hOwn e' (mem_cons_of_mem e hIn)
    rw [foldl_cons, removeExpired]
    cases hGet : s.allocations.get e.1 with
    | none => exact ih s n hRest
    | some a =>
      dsimp only
      by_cases hExpired : a.isExpired (sweep.recheck e.1) = true
      · rw [if_pos hExpired, ← hOwn e mem_cons_self a hGet]
        obtain ⟨reason, hStep⟩ := remove_event s order (sweep.remove e.1) hGet
        have hGone : ∀ c, (s.remove order (sweep.remove e.1) e.1 a.relayAddr).2.get c =
            (s.allocations.remove e.1).get c := fun c => by
          cases hStep with
          | closed _ hAllocations => rw [AllocationStore.get, hAllocations]
        obtain ⟨es, hRun, hClosed, hCount⟩ := ih _ (n + 1) (fun e' hIn a' hGet' => by
          rw [hGone] at hGet'
          exact hRest e' hIn a' (get_of_get_remove hGet'))
        refine ⟨_, .cons hStep hRun, ?_, ?_⟩
        · rintro x (_ | ⟨_, hx⟩)
          · rfl
          · exact hClosed x hx
        · rw [hCount, length_cons]
          omega
      · rw [if_neg hExpired]
        exact ih s n hRest

/-- It returns how many it closed. -/
theorem cleanup_events (sweep : SweepClock) (maxOps : Nat) :
    ∃ edits closes, TableRun (.quiet :: (edits ++ (closes ++ [.quiet]))) s
        (s.cleanupExpiredBudget order sweep maxOps).2 ∧
      (∀ e ∈ edits, ∃ c a, e = .edit c ∧ s.get c = some a ∧ a.isExpired (sweep.classify c) = false) ∧
      (∀ e ∈ closes, e.isClosed = true) ∧ (s.cleanupExpiredBudget order sweep maxOps).1 = closes.length := by
  have hSweep : SameTables s (s.sweepReservations sweep.reservations) := ⟨rfl, rfl, rfl, rfl⟩
  obtain ⟨edits, hEdits, hLive⟩ := prune_events (s.sweepReservations sweep.reservations) order sweep.prune
    ((s.sweepReservations sweep.reservations).classified order sweep maxOps).toClean
  obtain ⟨closes, hCloses, hClosed, hCount⟩ := removeExpired_events
    (((s.sweepReservations sweep.reservations).classified order sweep maxOps).toClean.foldl
      (fun s c => s.pruneEntries order sweep.prune c) (s.sweepReservations sweep.reservations)) order sweep
    ((s.sweepReservations sweep.reservations).classified order sweep maxOps).expired 0 (fun e hIn a hGet => by
      obtain ⟨a₁, hGet₁, hRelay₁⟩ := mem_classified_expired _ hIn
      obtain ⟨a₀, hGet₀, hRelay₀⟩ := relayAddr_of_edits hEdits (fun e he => (hLive e he).imp fun c h => h.2) hGet
      rw [show AllocationStore.get _ e.1 = some a₁ from hGet₁] at hGet₀
      cases hGet₀
      exact hRelay₀.symm.trans hRelay₁)
  refine ⟨edits, closes, ?_, fun e he => ?_, hClosed, ?_⟩
  · exact .cons (.quiet hSweep) (hEdits.append (hCloses.append (.single (.quiet ⟨rfl, rfl, rfl, rfl⟩))))
  · obtain ⟨c, hIn, rfl⟩ := hLive e he
    obtain ⟨a, hGet, hNot⟩ := live_of_mem_toClean _ order hIn
    exact ⟨c, a, rfl, hGet, hNot⟩
  · exact hCount.trans (Nat.zero_add _)

end Operations

end Turna.Session
