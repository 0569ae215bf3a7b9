import Mathlib.Data.List.Dedup
import Mathlib.Data.List.Induction
import Turna.Session.Store
import Turna.StateBackend.CommandLog

/-! # What coalescing preserves

The effect of an event on the row of its port is compared with the effect of the batch entry the
event was folded into. The two agree except for a Remove that meets a pending Create: there the
entry is dropped and the row from before the batch stays.
-/

namespace Turna.Node
open Lib Net Session StateBackend HashMap

structure WriterCounters where
  batches : Nat := 0
  opsCreate : Nat := 0
  opsRefresh : Nat := 0
  opsRemove : Nat := 0
  opsPerm : Nat := 0
  opsChan : Nat := 0
  coalesced : Nat := 0
  backendErrors : Nat := 0
  deriving DecidableEq, Repr

structure CreateData where
  clientAddr : SocketAddr
  relayAddr : SocketAddr
  username : String
  realm : String
  allocationId : String
  migrationEpoch : UInt64
  createdAtMs : Nat
  expiresAtMs : Nat
  deriving DecidableEq, Repr

inductive PortState where
  | new (data : CreateData)
  | touched
  | removed
  deriving DecidableEq, Repr

structure PortBatch where
  state : PortState
  refreshExpires : Option Nat
  rekeyAddr : Option SocketAddr
  rekeyEpoch : Option UInt64
  perms : HashMap IpAddr Nat
  chans : HashMap UInt16 (SocketAddr × Nat)

def PortBatch.newTouched : PortBatch := ⟨.touched, none, none, none, .empty, .empty⟩

def PortBatch.newCreated (data : CreateData) : PortBatch := ⟨.new data, none, none, none, .empty, .empty⟩

abbrev Batch := HashMap UInt16 PortBatch

/-- The flag says that the event overwrote earlier work. -/
def Batch.apply (batch : Batch) (op : WriteOp) : Batch × Bool :=
  let port := op.relayPort
  match op with
  | .create _ clientAddr relayAddr username realm createdAtMs expiresAtMs allocationId migrationEpoch =>
    let data : CreateData :=
      { clientAddr, relayAddr, username, realm, allocationId, migrationEpoch, createdAtMs, expiresAtMs }
    let coalesced := match (batch.get port).map PortBatch.state with
      | some (.new _) | some .removed => true
      | _ => false
    (batch.insert port (.newCreated data), coalesced)
  | .reKey _ newClientAddr newEpoch =>
    match batch.get port with
    | some pb =>
      let state := match pb.state with
        | .new data => .new { data with clientAddr := newClientAddr, migrationEpoch := newEpoch }
        | state => state
      (batch.insert port { pb with state, rekeyAddr := some newClientAddr, rekeyEpoch := some newEpoch }, true)
    | none =>
      (batch.insert port
        { PortBatch.newTouched with rekeyAddr := some newClientAddr, rekeyEpoch := some newEpoch }, false)
  | .remove _ =>
    match batch.get port with
    | some pb =>
      match pb.state with
      -- Create and Remove in one batch: the port is dropped without a backend call.
      | .new _ => (batch.remove port, true)
      | _ => ((batch.remove port).insert port { PortBatch.newTouched with state := .removed }, true)
    | none => ((batch.remove port).insert port { PortBatch.newTouched with state := .removed }, false)
  | .refresh _ expiresAtMs =>
    let pb := (batch.get port).getD .newTouched
    (batch.insert port { pb with refreshExpires := some expiresAtMs }, pb.refreshExpires.isSome)
  | .permission _ peerIp expiresAtMs =>
    let pb := (batch.get port).getD .newTouched
    (batch.insert port { pb with perms := pb.perms.insert peerIp expiresAtMs }, pb.perms.contains peerIp)
  | .channel _ number peerAddr expiresAtMs =>
    let pb := (batch.get port).getD .newTouched
    (batch.insert port { pb with chans := pb.chans.insert number (peerAddr, expiresAtMs) },
      pb.chans.contains number)
  | .barrier _ => (batch, false)

def btreeSet (l : List String) : List String := l.dedup.mergeSort (fun a b => decide (a ≤ b))

theorem btreeSet_perm (l : List String) : (btreeSet l).Perm l.dedup := List.mergeSort_perm _ _

section Flush

variable (order : IterOrder)

def storedChannels (chans : HashMap UInt16 (SocketAddr × Nat)) : List StoredChannel :=
  (order.visit chans.entries).map (fun e => ⟨e.1, e.2.1.toString, e.2.2⟩)

def permissionTexts (perms : HashMap IpAddr Nat) : List String :=
  (order.visit perms.keys).map IpAddr.toString

def buildStored (nodeId realm : String) (port : UInt16) (data : CreateData) (expiresAtMs : Nat)
    (perms : HashMap IpAddr Nat) (chans : HashMap UInt16 (SocketAddr × Nat)) : StoredAllocation where
  id := nodeId ++ ":" ++ String.ofList (Nat.toDigits 10 port.toNat)
  relayPort := port
  allocationId := data.allocationId
  migrationEpoch := data.migrationEpoch
  clientAddr := data.clientAddr.toString
  relayAddr := data.relayAddr.toString
  userId := data.username
  realm := if data.realm.isEmpty then realm else data.realm
  nodeId := nodeId
  createdAtMs := data.createdAtMs
  expiresAtMs := expiresAtMs
  bytesIn := 0
  bytesOut := 0
  packetsIn := 0
  packetsOut := 0
  permissions := permissionTexts order perms
  channels := storedChannels order chans

def applyPerms (dst : List String) (src : HashMap IpAddr Nat) : List String :=
  if src.len = 0 then dst else btreeSet (dst ++ permissionTexts order src)

def applyChans (dst : List StoredChannel) (src : HashMap UInt16 (SocketAddr × Nat)) : List StoredChannel :=
  if src.len = 0 then dst
  else dst.filter (fun c => !src.contains c.number) ++ storedChannels order src

def PortBatch.merge (batch : PortBatch) (existing : StoredAllocation) : StoredAllocation :=
  { existing with
    expiresAtMs := batch.refreshExpires.getD existing.expiresAtMs
    clientAddr := (batch.rekeyAddr.map SocketAddr.toString).getD existing.clientAddr
    migrationEpoch := batch.rekeyEpoch.getD existing.migrationEpoch
    permissions := applyPerms order existing.permissions batch.perms
    channels := applyChans order existing.channels batch.chans }

def flushPort (faults : CallFaults) (backend : InMemoryBackend) (nodeId realm : String)
    (port : UInt16) (batch : PortBatch) (counters : WriterCounters) :
    Except BackendError InMemoryBackend × WriterCounters :=
  match batch.state with
  | .removed =>
    (call faults.remove (backend.removeAllocation port),
      { counters with opsRemove := counters.opsRemove + 1 })
  | .new data =>
    let expires := batch.refreshExpires.getD data.expiresAtMs
    let stored := buildStored order nodeId realm port data expires batch.perms batch.chans
    (call faults.store (backend.storeAllocation stored),
      { counters with opsCreate := counters.opsCreate + 1 })
  | .touched =>
    match call faults.get (backend.getAllocation port) with
    | .error error => (.error error, counters)
    | .ok none => (.ok backend, counters)
    | .ok (some existing) =>
      (call faults.store (backend.storeAllocation (batch.merge order existing)),
        { counters with
          opsRefresh := counters.opsRefresh + batch.refreshExpires.isSome.toNat
          opsPerm := counters.opsPerm + batch.perms.len
          opsChan := counters.opsChan + batch.chans.len })

/-- A failed flush leaves the backend as it was and is counted. -/
def flushEntry (faults : UInt16 → CallFaults) (nodeId realm : String)
    (s : InMemoryBackend × WriterCounters) (entry : UInt16 × PortBatch) : InMemoryBackend × WriterCounters :=
  match flushPort order (faults entry.1) s.1 nodeId realm entry.1 entry.2 s.2 with
  | (.ok backend, counters) => (backend, counters)
  | (.error _, counters) => (s.1, { counters with backendErrors := counters.backendErrors + 1 })

def flushBatch (faults : UInt16 → CallFaults) (backend : InMemoryBackend) (nodeId realm : String)
    (batch : Batch) (counters : WriterCounters) : InMemoryBackend × WriterCounters :=
  let (backend, counters) :=
    (order.visit batch.entries).foldl (flushEntry order faults nodeId realm) (backend, counters)
  (backend, { counters with batches := counters.batches + 1 })

end Flush

def Batch.applyAll (batch : Batch) (ops : List WriteOp) : Batch :=
  ops.foldl (fun batch op => (batch.apply op).1) batch

def flushAll (order : IterOrder) (nodeId realm : String) (backend : InMemoryBackend)
    (batches : List (List WriteOp)) : InMemoryBackend :=
  batches.foldl (fun backend ops =>
    (flushBatch order (fun _ => .none) backend nodeId realm (Batch.applyAll .empty ops) {}).1) backend

/-! ## What coalescing preserves -/

section Row

variable (order : IterOrder) (nodeId realm : String) (port : UInt16)

def runOp (row : Option StoredAllocation) : WriteOp → Option StoredAllocation
  | .create _ clientAddr relayAddr username realm' createdAtMs expiresAtMs allocationId migrationEpoch =>
    some (buildStored order nodeId realm port
      { clientAddr, relayAddr, username, realm := realm', allocationId, migrationEpoch, createdAtMs,
        expiresAtMs } expiresAtMs .empty .empty)
  | .refresh _ expiresAtMs => row.map fun r => { r with expiresAtMs }
  | .remove _ => none
  | .reKey _ addr epoch =>
    row.map fun r => { r with clientAddr := addr.toString, migrationEpoch := epoch }
  | .permission _ ip _ =>
    row.map fun r => { r with permissions := btreeSet (r.permissions ++ [ip.toString]) }
  | .channel _ number peer expiresAtMs =>
    row.map fun r =>
      { r with
        channels := r.channels.filter (fun c => c.number ≠ number) ++ [⟨number, peer.toString, expiresAtMs⟩] }
  | .barrier _ => row

def runOps (row : Option StoredAllocation) (ops : List WriteOp) : Option StoredAllocation :=
  ops.foldl (runOp order nodeId realm port) row

def flushRow (entry : Option PortBatch) (row : Option StoredAllocation) : Option StoredAllocation :=
  match entry with
  | none => row
  | some pb =>
    match pb.state with
    | .removed => none
    | .new data =>
      some (buildStored order nodeId realm port data (pb.refreshExpires.getD data.expiresAtMs) pb.perms pb.chans)
    | .touched => row.map (pb.merge order)

end Row

def stepEntry (entry : Option PortBatch) : WriteOp → Option PortBatch
  | .create _ clientAddr relayAddr username realm createdAtMs expiresAtMs allocationId migrationEpoch =>
    some (.newCreated
      { clientAddr, relayAddr, username, realm, allocationId, migrationEpoch, createdAtMs, expiresAtMs })
  | .reKey _ addr epoch =>
    let pb := entry.getD .newTouched
    let state := match pb.state with
      | .new data => .new { data with clientAddr := addr, migrationEpoch := epoch }
      | state => state
    some { pb with state, rekeyAddr := some addr, rekeyEpoch := some epoch }
  | .remove _ =>
    match entry.map PortBatch.state with
    | some (.new _) => none
    | _ => some { PortBatch.newTouched with state := .removed }
  | .refresh _ expiresAtMs => some { entry.getD .newTouched with refreshExpires := some expiresAtMs }
  | .permission _ ip expiresAtMs =>
    let pb := entry.getD .newTouched
    some { pb with perms := pb.perms.insert ip expiresAtMs }
  | .channel _ number peer expiresAtMs =>
    let pb := entry.getD .newTouched
    some { pb with chans := pb.chans.insert number (peer, expiresAtMs) }
  | .barrier _ => entry

theorem Batch.get_apply_self (batch : Batch) (op : WriteOp) :
    (batch.apply op).1.get op.relayPort = stepEntry (batch.get op.relayPort) op := by
  cases op with
  | reKey relayPort addr epoch =>
    simp only [Batch.apply, WriteOp.relayPort]
    cases h : batch.get relayPort with
    | none | some pb => exact get_insert_self ..
  | remove relayPort =>
    simp only [Batch.apply, WriteOp.relayPort, stepEntry]
    cases h : batch.get relayPort with
    | none => exact get_insert_self ..
    | some pb =>
      simp only [Option.map_some]
      cases hState : pb.state with
      | new data => exact get_remove_self ..
      | touched | removed => exact get_insert_self ..
  | barrier generation => rfl
  | _ => exact get_insert_self ..

theorem Batch.get_apply_ne (batch : Batch) {op : WriteOp} {port : UInt16} (hPort : port ≠ op.relayPort) :
    (batch.apply op).1.get port = batch.get port := by
  cases op with
  | reKey relayPort addr epoch =>
    simp only [Batch.apply, WriteOp.relayPort]
    split <;> exact get_insert_ne _ _ hPort
  | remove relayPort =>
    simp only [Batch.apply, WriteOp.relayPort]
    have hRemove := get_remove_ne batch hPort
    split
    · split
      · exact hRemove
      · exact (get_insert_ne _ _ hPort).trans hRemove
    · exact (get_insert_ne _ _ hPort).trans hRemove
  | barrier generation => rfl
  | _ => exact get_insert_ne _ _ hPort

theorem Batch.get_applyAll (ops : List WriteOp) (batch : Batch) (port : UInt16) :
    (batch.applyAll ops).get port = (portOps port ops).foldl stepEntry (batch.get port) := by
  induction ops generalizing batch with
  | nil => rfl
  | cons op ops ih =>
    change ((batch.apply op).1.applyAll ops).get port = _
    rw [ih, portOps, portOps, List.filter_cons]
    split
    · next h =>
      have hPort : op.relayPort = port := of_decide_eq_true h
      rw [← hPort, Batch.get_apply_self, List.foldl_cons]
    next h =>
    have hPort : port ≠ op.relayPort := fun hEq => h (decide_eq_true hEq.symm)
    rw [Batch.get_apply_ne batch hPort]

section Vectors

variable (order : IterOrder) {perms : HashMap IpAddr Nat} {l : List String}

theorem mem_btreeSet {x : String} : x ∈ btreeSet l ↔ x ∈ l := (btreeSet_perm l).mem_iff.trans List.mem_dedup

theorem nodup_btreeSet (l : List String) : (btreeSet l).Nodup := (btreeSet_perm l).nodup_iff.mpr l.nodup_dedup

theorem btreeSet_perm_of_mem_iff {l' : List String} (h : ∀ x, x ∈ l ↔ x ∈ l') : (btreeSet l).Perm (btreeSet l') := by
  rw [List.perm_ext_iff_of_nodup (nodup_btreeSet l) (nodup_btreeSet l')]
  intro x
  rw [mem_btreeSet, mem_btreeSet, h]

variable {text : String}

theorem mem_permissionTexts : text ∈ permissionTexts order perms ↔ ∃ ip ∈ perms.keys, ip.toString = text := by
  rw [permissionTexts, List.mem_map]
  simp only [order.mem_visit]

theorem nodup_permissionTexts (perms : HashMap IpAddr Nat) : (permissionTexts order perms).Nodup := by
  apply List.Nodup.map (fun _ _ => IpAddr.toString_inj)
  exact (order.perm _).nodup_iff.mpr perms.nodup_keys

theorem mem_permissionTexts_insert {ip : IpAddr} {expires : Nat} :
    text ∈ permissionTexts order (perms.insert ip expires) ↔
      text ∈ permissionTexts order perms ∨ text = ip.toString := by
  simp only [mem_permissionTexts, mem_keys_iff, get_insert]
  constructor
  · rintro ⟨ip', ⟨v, hv⟩, rfl⟩
    split at hv
    · next h => exact .inr (by rw [h])
    · exact .inl ⟨ip', ⟨v, hv⟩, rfl⟩
  · rintro (⟨ip', ⟨v, hv⟩, rfl⟩ | rfl)
    · refine ⟨ip', ?_, rfl⟩
      split
      · exact ⟨_, rfl⟩
      · exact ⟨v, hv⟩
    · exact ⟨ip, ⟨expires, if_pos rfl⟩, rfl⟩

theorem mem_applyPerms {dst : List String} {src : HashMap IpAddr Nat} :
    text ∈ applyPerms order dst src ↔ text ∈ dst ∨ text ∈ permissionTexts order src := by
  rw [applyPerms]
  split
  · next h =>
    have hNone : text ∉ permissionTexts order src := by
      rw [mem_permissionTexts]
      rintro ⟨ip, hip, -⟩
      rw [keys, len_eq_zero_iff.mp h] at hip
      cases hip
    simp only [hNone, or_false]
  · rw [mem_btreeSet, List.mem_append]

theorem applyPerms_insert (dst : List String) (src : HashMap IpAddr Nat) (ip : IpAddr) (expires : Nat) :
    (applyPerms order dst (src.insert ip expires)).Perm
      (btreeSet (applyPerms order dst src ++ [ip.toString])) := by
  rw [applyPerms, if_neg (src.len_insert_ne_zero ip expires)]
  apply btreeSet_perm_of_mem_iff
  intro text
  simp only [List.mem_append, List.mem_singleton, mem_applyPerms, mem_permissionTexts_insert, or_assoc]

theorem permissionTexts_insert (src : HashMap IpAddr Nat) (ip : IpAddr) (expires : Nat) :
    (permissionTexts order (src.insert ip expires)).Perm
      (btreeSet (permissionTexts order src ++ [ip.toString])) := by
  rw [List.perm_ext_iff_of_nodup (nodup_permissionTexts order _) (nodup_btreeSet _)]
  intro text
  rw [mem_permissionTexts_insert, mem_btreeSet, List.mem_append, List.mem_singleton]

theorem storedChannels_insert (src : HashMap UInt16 (SocketAddr × Nat)) (number : UInt16) (peer : SocketAddr)
    (expires : Nat) :
    (storedChannels order (src.insert number (peer, expires))).Perm
      ((storedChannels order src).filter (fun c => c.number ≠ number) ++ [⟨number, peer.toString, expires⟩]) := by
  rw [storedChannels, storedChannels, List.filter_map]
  have hEntries := (order.perm _).trans (src.entries_insert_perm number (peer, expires))
  have hOld := (order.perm src.entries).symm.filter (fun e => e.1 ≠ number)
  refine ((hEntries.trans (hOld.cons _)).map _).trans ?_
  rw [List.map_cons]
  exact (List.perm_append_singleton _ _).symm

theorem applyChans_eq (dst : List StoredChannel) (src : HashMap UInt16 (SocketAddr × Nat)) :
    applyChans order dst src = dst.filter (fun c => !src.contains c.number) ++ storedChannels order src := by
  rw [applyChans]
  split
  · next h =>
    have hVisit : order.visit src.entries = [] := by
      rw [len_eq_zero_iff.mp h]
      exact (order.perm []).eq_nil
    have hKeep : ∀ c ∈ dst, !src.contains c.number := by
      intro c _
      rw [contains, get_of_len_zero h]
      rfl
    rw [storedChannels, hVisit, List.filter_eq_self.mpr hKeep, List.map_nil, List.append_nil]
  · rfl

theorem applyChans_insert (dst : List StoredChannel) (src : HashMap UInt16 (SocketAddr × Nat)) (number : UInt16)
    (peer : SocketAddr) (expires : Nat) :
    (applyChans order dst (src.insert number (peer, expires))).Perm
      ((applyChans order dst src).filter (fun c => c.number ≠ number) ++
        [⟨number, peer.toString, expires⟩]) := by
  rw [applyChans_eq, applyChans_eq, List.filter_append, List.filter_filter, List.append_assoc]
  have hKept : ∀ c ∈ dst, (!(src.insert number (peer, expires)).contains c.number) =
      (decide (c.number ≠ number) && !src.contains c.number) := by
    intro c _
    rw [contains, get_insert, contains]
    split
    · next h => simp [h]
    · next h => simp [h]
  rw [List.filter_congr hKept]
  exact (storedChannels_insert order src number peer expires).append_left _

end Vectors

def pending (entry : Option PortBatch) : Bool :=
  match entry.map PortBatch.state with
  | some (.new _) => true
  | _ => false

theorem stepEntry_remove (entry : Option PortBatch) (relayPort : UInt16) : stepEntry entry (.remove relayPort) =
      if pending entry then none else some { PortBatch.newTouched with state := .removed } := by
  rw [stepEntry, pending]
  split <;> rfl

section Agreement

variable {order : IterOrder} {nodeId realm : String} {port : UInt16}

theorem flushRow_newTouched (row : Option StoredAllocation) :
    flushRow order nodeId realm port (some .newTouched) row = row := by
  cases row <;> rfl

variable {op : WriteOp}

theorem stepEntry_of_touch (hOp : op.terminal = none) (entry : Option PortBatch) (row : Option StoredAllocation) :
    flushRow order nodeId realm port (stepEntry entry op) row =
      flushRow order nodeId realm port (stepEntry (some (entry.getD .newTouched)) op) row := by
  cases entry with
  | some pb => rfl
  | none =>
    cases op with
    | barrier generation => exact (flushRow_newTouched row).symm
    | create | remove => cases hOp
    | _ => rfl

theorem flushRow_getD_newTouched (entry : Option PortBatch) (row : Option StoredAllocation) :
    flushRow order nodeId realm port (some (entry.getD .newTouched)) row =
      flushRow order nodeId realm port entry row := by
  cases entry with
  | some pb => rfl
  | none => exact flushRow_newTouched row

theorem rowEquiv_map_map {f g h : StoredAllocation → StoredAllocation}
    (hEq : ∀ r, (f r).Equiv (h (g r))) (row : Option StoredAllocation) :
    RowEquiv (row.map f) ((row.map g).map h) := by
  cases row with
  | none => exact .none
  | some r => exact .some (hEq r)

theorem flushRow_touch (pb : PortBatch) (hOp : op.terminal = none) (row : Option StoredAllocation) :
    RowEquiv (flushRow order nodeId realm port (stepEntry (some pb) op) row)
      (runOp order nodeId realm port (flushRow order nodeId realm port (some pb) row) op) := by
  cases op with
  | create | remove => cases hOp
  | barrier generation => exact .refl _
  | refresh relayPort expires | reKey relayPort addr epoch =>
    simp only [stepEntry, runOp, flushRow, Option.getD_some]
    cases pb.state with
    | removed => exact .none
    | new data => exact .refl _
    | touched =>
      refine rowEquiv_map_map (fun r => ?_) row
      exact .refl _
  | permission relayPort ip expires =>
    simp only [stepEntry, runOp, flushRow, Option.getD_some]
    cases pb.state with
    | removed => exact .none
    | new data => exact .some ⟨rfl, permissionTexts_insert order pb.perms ip expires, .refl _⟩
    | touched =>
      refine rowEquiv_map_map (fun r => ?_) row
      exact ⟨rfl, applyPerms_insert order _ pb.perms ip expires, .refl _⟩
  | channel relayPort number peer expires =>
    simp only [stepEntry, runOp, flushRow, Option.getD_some]
    cases pb.state with
    | removed => exact .none
    | new data => exact .some ⟨rfl, .refl _, storedChannels_insert order pb.chans number peer expires⟩
    | touched =>
      refine rowEquiv_map_map (fun r => ?_) row
      exact ⟨rfl, .refl _, applyChans_insert order _ pb.chans number peer expires⟩

/-- Unless the event is a Remove that meets a pending Create. -/
theorem flushRow_stepEntry {entry : Option PortBatch}
    (hKeep : op.terminal = some .remove → pending entry = false) (row : Option StoredAllocation) :
    RowEquiv (flushRow order nodeId realm port (stepEntry entry op) row)
      (runOp order nodeId realm port (flushRow order nodeId realm port entry row) op) := by
  cases hTerminal : op.terminal with
  | some terminal =>
    cases op with
    | create => exact .refl _
    | remove relayPort =>
      rw [stepEntry_remove, hKeep rfl]
      exact .none
    | _ => cases hTerminal
  | none =>
    rw [stepEntry_of_touch hTerminal, ← flushRow_getD_newTouched entry]
    exact flushRow_touch _ hTerminal row

variable {row' row : Option StoredAllocation}

theorem runOp_congr (op : WriteOp) (h : RowEquiv row row') :
    RowEquiv (runOp order nodeId realm port row op) (runOp order nodeId realm port row' op) := by
  cases op with
  | create => exact .refl _
  | remove => exact .none
  | barrier => exact h
  | refresh relayPort expires =>
    refine h.map (fun a b hab => ?_)
    have hScalars := congrArg (fun r => { r with expiresAtMs := expires }) hab.scalars
    exact ⟨hScalars, hab.permissions, hab.channels⟩
  | reKey relayPort addr epoch =>
    refine h.map (fun a b hab => ?_)
    have hScalars := congrArg (fun r => { r with clientAddr := addr.toString, migrationEpoch := epoch }) hab.scalars
    exact ⟨hScalars, hab.permissions, hab.channels⟩
  | permission relayPort ip expires =>
    refine h.map (fun a b hab => ?_)
    refine ⟨hab.scalars, btreeSet_perm_of_mem_iff (fun text => ?_), hab.channels⟩
    rw [List.mem_append, List.mem_append, hab.permissions.mem_iff]
  | channel relayPort number peer expires =>
    refine h.map (fun a b hab => ?_)
    exact ⟨hab.scalars, hab.permissions, (hab.channels.filter _).append_right _⟩

theorem runOps_congr (ops : List WriteOp) (h : RowEquiv row row') :
    RowEquiv (runOps order nodeId realm port row ops) (runOps order nodeId realm port row' ops) := by
  induction ops generalizing row row' with
  | nil => exact h
  | cons op ops ih => exact ih (runOp_congr op h)

theorem isSome_runOp_of_touch (hOp : op.terminal = none) (row : Option StoredAllocation) :
    (runOp order nodeId realm port row op).isSome = row.isSome := by
  cases op with
  | create | remove => cases hOp
  | barrier => rfl
  | _ => cases row <;> rfl

end Agreement

/-- The last two terminal events are a Create and the Remove that cancels it. -/
def Cancelled (terms : List Terminal) : Prop := [Terminal.create, Terminal.remove] <:+ terms

instance (terms : List Terminal) : Decidable (Cancelled terms) :=
  inferInstanceAs (Decidable ([Terminal.create, Terminal.remove] <:+ terms))

theorem cancelled_concat (terms : List Terminal) (t : Terminal) :
    Cancelled (terms ++ [t]) ↔ t = .remove ∧ terms.getLast? = some .create := by
  rw [Cancelled, List.suffix_concat_iff]
  constructor
  · rintro (h | ⟨front, hEq, hSuffix⟩)
    · cases h
    have hSplit : [Terminal.create] ++ [Terminal.remove] = front ++ [t] := hEq
    obtain ⟨rfl, hLast⟩ := List.append_inj' hSplit rfl
    obtain ⟨rest, rfl⟩ := hSuffix
    cases hLast
    exact ⟨rfl, List.getLast?_concat⟩
  · rintro ⟨rfl, hLast⟩
    obtain ⟨rest, rfl⟩ := List.getLast?_eq_some_iff.mp hLast
    exact .inr ⟨[.create], rfl, rest, rfl⟩

section OneBatch

variable {order : IterOrder} {nodeId realm : String} {port : UInt16}

theorem pending_stepEntry_of_touch {op : WriteOp} (hOp : op.terminal = none) (entry : Option PortBatch) :
    pending (stepEntry entry op) = pending entry := by
  cases op with
  | create | remove => cases hOp
  | barrier => rfl
  | reKey relayPort addr epoch =>
    cases entry with
    | none => rfl
    | some pb =>
      simp only [pending, stepEntry, Option.map_some, Option.getD_some]
      cases pb.state <;> rfl
  | _ => cases entry <;> rfl

theorem filterMap_terminal_concat (ops : List WriteOp) (op : WriteOp) :
    (ops ++ [op]).filterMap WriteOp.terminal = ops.filterMap WriteOp.terminal ++ op.terminal.toList := by
  rw [List.filterMap_append]
  cases h : op.terminal <;> simp [h]

theorem pending_iff (ops : List WriteOp) : pending (ops.foldl stepEntry none) = true ↔
      (ops.filterMap WriteOp.terminal).getLast? = some .create := by
  induction ops using List.reverseRecOn with
  | nil => simp [pending]
  | append_singleton ops op ih =>
    rw [List.foldl_concat, filterMap_terminal_concat]
    cases hTerminal : op.terminal with
    | none =>
      rw [pending_stepEntry_of_touch hTerminal, ih, Option.toList_none, List.append_nil]
    | some t =>
      rw [Option.toList_some, List.getLast?_concat]
      cases op with
      | create => cases hTerminal; simp [pending, stepEntry, PortBatch.newCreated]
      | remove relayPort =>
        cases hTerminal
        rw [stepEntry_remove]
        split <;> simp [pending]
      | _ => cases hTerminal

theorem not_cancelled_create (terms : List Terminal) : ¬ Cancelled (terms ++ [.create]) := by
  rw [cancelled_concat]
  rintro ⟨h, -⟩
  cases h

theorem cancelled_remove_iff (ops : List WriteOp) :
    Cancelled (ops.filterMap WriteOp.terminal ++ [.remove]) ↔ pending (ops.foldl stepEntry none) = true := by
  rw [cancelled_concat, pending_iff]
  exact and_iff_right rfl

theorem runOps_concat (row : Option StoredAllocation) (ops : List WriteOp) (op : WriteOp) :
    runOps order nodeId realm port row (ops ++ [op]) =
      runOp order nodeId realm port (runOps order nodeId realm port row ops) op :=
  List.foldl_concat ..

theorem flushRow_stepEntry_of_touch (entry : Option PortBatch) {op : WriteOp} (hOp : op.terminal = none)
    (row : Option StoredAllocation) :
    RowEquiv (flushRow order nodeId realm port (stepEntry entry op) row)
      (runOp order nodeId realm port (flushRow order nodeId realm port entry row) op) := by
  refine flushRow_stepEntry (fun h => ?_) row
  rw [hOp] at h
  cases h

theorem flushRow_of_not_cancelled (ops : List WriteOp) (row : Option StoredAllocation)
    (h : ¬ Cancelled (ops.filterMap WriteOp.terminal)) :
    RowEquiv (flushRow order nodeId realm port (ops.foldl stepEntry none) row)
      (runOps order nodeId realm port row ops) := by
  induction ops using List.reverseRecOn with
  | nil => exact .refl row
  | append_singleton ops op ih =>
    rw [filterMap_terminal_concat] at h
    rw [List.foldl_concat, runOps_concat]
    cases hTerminal : op.terminal with
    | none =>
      rw [hTerminal, Option.toList_none, List.append_nil] at h
      exact (flushRow_stepEntry_of_touch _ hTerminal row).trans (runOp_congr op (ih h))
    | some t =>
      rw [hTerminal, Option.toList_some] at h
      cases op with
      | create => exact .refl _
      | remove relayPort =>
        cases hTerminal
        rw [cancelled_remove_iff] at h
        rw [stepEntry_remove, if_neg h]
        exact .none
      | _ => cases hTerminal

/-- The batch keeps the row from before; its events one by one leave none. -/
theorem flushRow_of_cancelled (ops : List WriteOp) (row : Option StoredAllocation)
    (h : Cancelled (ops.filterMap WriteOp.terminal)) :
    (flushRow order nodeId realm port (ops.foldl stepEntry none) row).isSome = row.isSome ∧
      runOps order nodeId realm port row ops = none := by
  induction ops using List.reverseRecOn with
  | nil => exact absurd h (by decide)
  | append_singleton ops op ih =>
    rw [filterMap_terminal_concat] at h
    rw [List.foldl_concat, runOps_concat]
    cases hTerminal : op.terminal with
    | none =>
      rw [hTerminal, Option.toList_none, List.append_nil] at h
      obtain ⟨hSome, hNone⟩ := ih h
      refine ⟨?_, ?_⟩
      · rw [(flushRow_stepEntry_of_touch _ hTerminal row).isSome_eq, isSome_runOp_of_touch hTerminal, hSome]
      rw [hNone, ← Option.not_isSome_iff_eq_none, isSome_runOp_of_touch hTerminal]
      exact Bool.false_ne_true
    | some t =>
      rw [hTerminal, Option.toList_some] at h
      cases op with
      | create =>
        cases hTerminal
        exact absurd h (not_cancelled_create _)
      | remove relayPort =>
        cases hTerminal
        rw [cancelled_remove_iff] at h
        rw [stepEntry_remove, if_pos h]
        exact ⟨rfl, rfl⟩
      | _ => cases hTerminal

theorem runOps_eq_of_terminal (ops : List WriteOp) (row row' : Option StoredAllocation)
    (h : ops.filterMap WriteOp.terminal ≠ []) :
    runOps order nodeId realm port row ops = runOps order nodeId realm port row' ops := by
  induction ops using List.reverseRecOn with
  | nil => exact absurd rfl h
  | append_singleton ops op ih =>
    rw [filterMap_terminal_concat] at h
    rw [runOps_concat, runOps_concat]
    cases hTerminal : op.terminal with
    | none =>
      rw [hTerminal, Option.toList_none, List.append_nil] at h
      exact congrArg (fun r => runOp order nodeId realm port r op) (ih h)
    | some t =>
      cases op with
      | create | remove => rfl
      | _ => cases hTerminal

theorem isSome_runOps (ops : List WriteOp) (row : Option StoredAllocation) :
    (runOps order nodeId realm port row ops).isSome =
      match (ops.filterMap WriteOp.terminal).getLast? with
      | some t => t == .create
      | none => row.isSome := by
  induction ops using List.reverseRecOn with
  | nil => rfl
  | append_singleton ops op ih =>
    rw [filterMap_terminal_concat, runOps_concat]
    cases hTerminal : op.terminal with
    | none =>
      rw [isSome_runOp_of_touch hTerminal, Option.toList_none, List.append_nil]
      exact ih
    | some t =>
      rw [Option.toList_some, List.getLast?_concat]
      cases op with
      | create | remove => cases hTerminal; rfl
      | _ => cases hTerminal

end OneBatch

section Backend

variable {order : IterOrder} {nodeId realm : String}

theorem getAllocation_flushEntry (s : InMemoryBackend × WriterCounters) (entry : UInt16 × PortBatch)
    (port : UInt16) :
    (flushEntry order (fun _ => .none) nodeId realm s entry).1.getAllocation port =
      if port = entry.1 then flushRow order nodeId realm port (some entry.2) (s.1.getAllocation port)
      else s.1.getAllocation port := by
  obtain ⟨relayPort, pb⟩ := entry
  simp only [flushEntry, flushPort, CallFaults.none, call, flushRow]
  cases pb.state with
  | removed => exact InMemoryBackend.getAllocation_remove s.1 relayPort port
  | new data =>
    simp only [InMemoryBackend.getAllocation_store, buildStored]
    split
    · next h => rw [h]
    · rfl
  | touched =>
    cases hRow : s.1.getAllocation relayPort with
    | none =>
      change s.1.getAllocation port =
        if port = relayPort then (s.1.getAllocation port).map (pb.merge order) else s.1.getAllocation port
      split
      · next h => rw [h, hRow, Option.map_none]
      · rfl
    | some row =>
      have hKey : (pb.merge order row).relayPort = relayPort := s.1.keyed relayPort row hRow
      simp only [InMemoryBackend.getAllocation_store, hKey]
      split
      · next h => rw [h, hRow]; rfl
      · rfl

theorem getAllocation_foldl_flushEntry (l : List (UInt16 × PortBatch)) (hKeys : (l.map Prod.fst).Nodup)
    (s : InMemoryBackend × WriterCounters) (port : UInt16) (entry : Option PortBatch)
    (hEntry : ∀ pb, entry = some pb ↔ (port, pb) ∈ l) :
    (l.foldl (flushEntry order (fun _ => .none) nodeId realm) s).1.getAllocation port =
      flushRow order nodeId realm port entry (s.1.getAllocation port) := by
  induction l generalizing s entry with
  | nil =>
    cases entry with
    | none => rfl
    | some pb => exact absurd ((hEntry pb).mp rfl) List.not_mem_nil
  | cons e l ih =>
    obtain ⟨relayPort, pb⟩ := e
    rw [List.map_cons, List.nodup_cons] at hKeys
    rw [List.foldl_cons]
    by_cases h : port = relayPort
    · subst h
      have hHead : entry = some pb := (hEntry pb).mpr List.mem_cons_self
      have hRest : ∀ pb', none = some pb' ↔ (port, pb') ∈ l := by
        intro pb'
        refine ⟨nofun, fun hMem => ?_⟩
        exact absurd (List.mem_map_of_mem hMem) hKeys.1
      rw [ih hKeys.2 _ none hRest, getAllocation_flushEntry, if_pos rfl, hHead]
      rfl
    · have hRest : ∀ pb', entry = some pb' ↔ (port, pb') ∈ l := by
        intro pb'
        rw [hEntry, List.mem_cons, Prod.mk.injEq]
        exact or_iff_right fun hEq => h hEq.1
      rw [ih hKeys.2 _ entry hRest, getAllocation_flushEntry, if_neg h]

theorem getAllocation_flushBatch (backend : InMemoryBackend) (batch : Batch) (counters : WriterCounters)
    (port : UInt16) :
    (flushBatch order (fun _ => .none) backend nodeId realm batch counters).1.getAllocation port =
      flushRow order nodeId realm port (batch.get port) (backend.getAllocation port) := by
  apply getAllocation_foldl_flushEntry (order.visit batch.entries)
  · exact ((order.perm _).map _).nodup_iff.mpr batch.nodup_keys
  · intro pb
    rw [order.mem_visit, mem_entries_iff]

theorem getAllocation_flushAll_concat (backend : InMemoryBackend) (batches : List (List WriteOp))
    (ops : List WriteOp) (port : UInt16) :
    (flushAll order nodeId realm backend (batches ++ [ops])).getAllocation port =
      flushRow order nodeId realm port ((portOps port ops).foldl stepEntry none)
        ((flushAll order nodeId realm backend batches).getAllocation port) := by
  rw [flushAll, List.foldl_concat, getAllocation_flushBatch, Batch.get_applyAll]
  rfl

theorem getAllocation_flushAll_singletons {backend : InMemoryBackend} (ops : List WriteOp) (port : UInt16) :
    RowEquiv ((flushAll order nodeId realm backend (ops.map ([·]))).getAllocation port)
      (runOps order nodeId realm port (backend.getAllocation port) (portOps port ops)) := by
  induction ops using List.reverseRecOn with
  | nil => exact .refl _
  | append_singleton ops op ih =>
    rw [List.map_append, List.map_singleton, getAllocation_flushAll_concat, portOps_append]
    have hSingle : ¬ Cancelled ((portOps port [op]).filterMap WriteOp.terminal) := by
      intro h
      have hLength := h.length_le
      have hBound : ((portOps port [op]).filterMap WriteOp.terminal).length ≤ 1 :=
        (List.length_filterMap_le ..).trans (List.length_filter_le ..)
      exact absurd (hLength.trans hBound) (by decide)
    refine (flushRow_of_not_cancelled _ _ hSingle).trans ?_
    rw [runOps, runOps, List.foldl_append]
    exact runOps_congr _ ih

end Backend

/-- The batch decides whether the port has a row, whatever was there before. -/
def Settles (port : UInt16) (ops : List WriteOp) : Prop :=
  terminals port ops ≠ [] ∧ ¬ Cancelled (terminals port ops)

instance (port : UInt16) (ops : List WriteOp) : Decidable (Settles port ops) :=
  inferInstanceAs (Decidable (_ ∧ _))

/-- The last batch that settles the port says so, or the initial content. -/
def persisted (port : UInt16) (present : Bool) (batches : List (List WriteOp)) : Bool :=
  batches.foldl (fun present ops =>
    if Settles port ops then (terminals port ops).getLast? == some .create else present) present

/-- Some batch cancels a Create for a port that has a row, and no later batch settles the port. -/
def Resurrects (port : UInt16) (present : Bool) (batches : List (List WriteOp)) : Prop :=
  ∃ front ops rest, batches = front ++ ops :: rest ∧ Cancelled (terminals port ops) ∧
    persisted port present front = true ∧ ∀ later ∈ rest, ¬ Settles port later

theorem not_resurrects_nil (port : UInt16) (present : Bool) : ¬ Resurrects port present [] := by
  rintro ⟨front, ops, rest, hEq, -⟩
  simp at hEq

theorem resurrects_concat (port : UInt16) (present : Bool) (batches : List (List WriteOp)) (ops : List WriteOp) :
    Resurrects port present (batches ++ [ops]) ↔
      (Resurrects port present batches ∧ ¬ Settles port ops) ∨
        (Cancelled (terminals port ops) ∧ persisted port present batches = true) := by
  constructor
  · rintro ⟨front, ops', rest, hEq, hCancelled, hPresent, hLater⟩
    obtain rfl | ⟨rest', last, rfl⟩ := rest.eq_nil_or_concat
    · obtain ⟨rfl, hLast⟩ := List.append_inj' hEq rfl
      cases hLast
      exact .inr ⟨hCancelled, hPresent⟩
    rw [List.concat_eq_append] at hEq hLater
    have hSplit : batches ++ [ops] = (front ++ ops' :: rest') ++ [last] := by
      rw [hEq, List.append_assoc, List.cons_append]
    obtain ⟨rfl, hLast⟩ := List.append_inj' hSplit rfl
    cases hLast
    refine .inl ⟨⟨front, ops', rest', rfl, hCancelled, hPresent, fun later hMem => ?_⟩, ?_⟩
    · exact hLater later (List.mem_append_left _ hMem)
    · exact hLater ops (List.mem_append_right _ List.mem_cons_self)
  · rintro (⟨⟨front, ops', rest, rfl, hCancelled, hPresent, hLater⟩, hOps⟩ | ⟨hCancelled, hPresent⟩)
    · refine ⟨front, ops', rest ++ [ops], ?_, hCancelled, hPresent, fun later hMem => ?_⟩
      · rw [List.append_assoc, List.cons_append]
      rcases List.mem_append.mp hMem with hMem | hMem
      · exact hLater later hMem
      · rw [List.mem_singleton.mp hMem]
        exact hOps
    · exact ⟨batches, ops, [], rfl, hCancelled, hPresent, nofun⟩

section Runs

variable {order : IterOrder} {nodeId realm : String} {backend : InMemoryBackend} {port : UInt16} {ops : List WriteOp}

theorem isSome_runOps_of_no_terminal (h : terminals port ops = []) (row : Option StoredAllocation) :
    (runOps order nodeId realm port row (portOps port ops)).isSome = row.isSome := by
  rw [terminals] at h
  rw [isSome_runOps, h]
  rfl

theorem isSome_flushAll (batches : List (List WriteOp)) :
    ((flushAll order nodeId realm backend batches).getAllocation port).isSome =
      persisted port (backend.getAllocation port).isSome batches := by
  induction batches using List.reverseRecOn with
  | nil => rfl
  | append_singleton batches ops ih =>
    rw [getAllocation_flushAll_concat, persisted, List.foldl_concat]
    split
    · next hSettles =>
      obtain ⟨hTerms, hKeep⟩ := hSettles
      rw [(flushRow_of_not_cancelled _ _ hKeep).isSome_eq, isSome_runOps]
      change (match (terminals port ops).getLast? with | some t => _ | none => _) = _
      cases hLast : (terminals port ops).getLast? with
      | none => exact absurd (List.getLast?_eq_none_iff.mp hLast) hTerms
      | some t => rfl
    · next hSettles =>
      by_cases hCancelled : Cancelled (terminals port ops)
      · rw [(flushRow_of_cancelled _ _ hCancelled).1]
        exact ih
      have hNil : terminals port ops = [] := by
        by_contra hTerms
        exact hSettles ⟨hTerms, hCancelled⟩
      rw [(flushRow_of_not_cancelled _ _ hCancelled).isSome_eq, isSome_runOps_of_no_terminal hNil]
      exact ih

theorem runOps_flatten_concat (row : Option StoredAllocation) (batches : List (List WriteOp)) (ops : List WriteOp) :
    runOps order nodeId realm port row (portOps port (batches ++ [ops]).flatten) =
      runOps order nodeId realm port (runOps order nodeId realm port row (portOps port batches.flatten))
        (portOps port ops) := by
  rw [List.flatten_append, portOps_append, runOps, List.foldl_append]
  simp only [List.flatten_cons, List.flatten_nil, List.append_nil]
  rfl

/-- Run lemma: batched and unbatched rows differ from a cancelled Create to the next batch that settles the port. -/
theorem flushAll_agrees (batches : List (List WriteOp))
    (h : ¬ Resurrects port (backend.getAllocation port).isSome batches) :
    RowEquiv ((flushAll order nodeId realm backend batches).getAllocation port)
      (runOps order nodeId realm port (backend.getAllocation port) (portOps port batches.flatten)) := by
  induction batches using List.reverseRecOn with
  | nil => exact .refl _
  | append_singleton batches ops ih =>
    rw [resurrects_concat, not_or] at h
    obtain ⟨hOld, hNew⟩ := h
    rw [getAllocation_flushAll_concat, runOps_flatten_concat]
    by_cases hCancelled : Cancelled (terminals port ops)
    · obtain ⟨hSome, -⟩ := flushRow_of_cancelled (portOps port ops)
        ((flushAll order nodeId realm backend batches).getAllocation port) hCancelled
      obtain ⟨-, hNone⟩ := flushRow_of_cancelled (portOps port ops)
        (runOps order nodeId realm port (backend.getAllocation port) (portOps port batches.flatten)) hCancelled
      rw [isSome_flushAll, Bool.eq_false_iff.mpr fun hPresent => hNew ⟨hCancelled, hPresent⟩] at hSome
      rw [hNone, Option.isSome_eq_false_iff.mp hSome |> Option.isNone_iff_eq_none.mp]
      exact .none
    · refine (flushRow_of_not_cancelled _ _ hCancelled).trans ?_
      by_cases hTerms : terminals port ops = []
      · apply runOps_congr
        exact ih fun hRes => hOld ⟨hRes, fun hSettles => hSettles.1 hTerms⟩
      · rw [runOps_eq_of_terminal (portOps port ops) _ _ hTerms]
        exact .refl _

theorem flushAll_diverges (batches : List (List WriteOp))
    (h : Resurrects port (backend.getAllocation port).isSome batches) :
    ((flushAll order nodeId realm backend batches).getAllocation port).isSome = true ∧
      runOps order nodeId realm port (backend.getAllocation port) (portOps port batches.flatten) = none := by
  induction batches using List.reverseRecOn with
  | nil => exact absurd h (not_resurrects_nil _ _)
  | append_singleton batches ops ih =>
    rw [getAllocation_flushAll_concat, runOps_flatten_concat]
    by_cases hCancelled : Cancelled (terminals port ops)
    · have hPresent : ((flushAll order nodeId realm backend batches).getAllocation port).isSome = true := by
        rcases (resurrects_concat ..).mp h with ⟨hOld, -⟩ | ⟨-, hPresent⟩
        · exact (ih hOld).1
        · rw [isSome_flushAll, hPresent]
      refine ⟨?_, (flushRow_of_cancelled _ _ hCancelled).2⟩
      rw [(flushRow_of_cancelled _ _ hCancelled).1, hPresent]
    · obtain ⟨hOld, hSettles⟩ := ((resurrects_concat ..).mp h).resolve_right fun h => hCancelled h.1
      obtain ⟨hSome, hNone⟩ := ih hOld
      have hNil : terminals port ops = [] := by
        by_contra hTerms
        exact hSettles ⟨hTerms, hCancelled⟩
      refine ⟨?_, ?_⟩
      · rw [(flushRow_of_not_cancelled _ _ hCancelled).isSome_eq, isSome_runOps_of_no_terminal hNil, hSome]
      rw [hNone, ← Option.not_isSome_iff_eq_none, isSome_runOps_of_no_terminal hNil]
      exact Bool.false_ne_true

theorem runOps_of_last_remove (h : ops.getLast? = some (.remove port))
    (row : Option StoredAllocation) : runOps order nodeId realm port row ops = none := by
  obtain ⟨front, rfl⟩ := List.getLast?_eq_some_iff.mp h
  rw [runOps_concat]
  rfl

end Runs

section Meaning

variable (order : IterOrder) (nodeId realm : String) (backend : InMemoryBackend)

/-- The rows are those of the events flushed one at a time, and a port whose last event is a Remove has none. -/
structure PreservesMeaning (batches : List (List WriteOp)) : Prop where
  sameRows : (flushAll order nodeId realm backend batches).Equiv
    (flushAll order nodeId realm backend (batches.flatten.map ([·])))
  removed : ∀ port, (portOps port batches.flatten).getLast? = some (.remove port) →
    (flushAll order nodeId realm backend batches).getAllocation port = none

/-- Coalescing preserves meaning exactly when no batch resurrects a port. -/
theorem preservesMeaning_iff (batches : List (List WriteOp)) : PreservesMeaning order nodeId realm backend batches ↔
      ∀ port, ¬ Resurrects port (backend.getAllocation port).isSome batches := by
  constructor
  · rintro ⟨hRows, -⟩ port hRes
    have hEq := ((hRows port).trans (getAllocation_flushAll_singletons batches.flatten port)).isSome_eq
    obtain ⟨hSome, hNone⟩ := flushAll_diverges batches hRes
    rw [hSome, hNone] at hEq
    cases hEq
  · intro h
    refine ⟨fun port => ?_, fun port hLast => ?_⟩
    · exact (flushAll_agrees batches (h port)).trans (getAllocation_flushAll_singletons batches.flatten port).symm
    have hAgree := @flushAll_agrees order nodeId realm backend port batches (h port)
    rw [runOps_of_last_remove hLast] at hAgree
    cases hRow : (flushAll order nodeId realm backend batches).getAllocation port with
    | none => rfl
    | some row =>
      rw [hRow] at hAgree
      cases hAgree

end Meaning

def resyncedCreate : WriteOp :=
  .create 49152 (.v4 ⟨198, 51, 100, 7⟩ 40000) (.v4 ⟨203, 0, 113, 1⟩ 49152) "alice" "example.org"
    1000 601000 "0000000000000001" 0

/-- A Create that `resync_all` re-emits for a persisted row, then the Remove, in one batch. -/
theorem resync_then_remove_keeps_row :
    let backend := flushAll .stored "node-a" "example.org" .new [[resyncedCreate]]
    ¬ PreservesMeaning .stored "node-a" "example.org" backend [[resyncedCreate, .remove 49152]] := by
  intro backend hPreserves
  have hNone := hPreserves.removed 49152 rfl
  have hSome : ((flushAll .stored "node-a" "example.org" backend
      [[resyncedCreate, .remove 49152]]).getAllocation 49152).isSome = true := by decide
  rw [hNone] at hSome
  cases hSome

end Turna.Node
