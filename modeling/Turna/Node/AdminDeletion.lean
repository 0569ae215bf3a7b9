import Turna.Lib.Guards
import Turna.Session.Identity
import Turna.StateBackend.CommandLog

/-! # Admin deletion and the guards of the store

The allocation that `apply_command` finds stays borrowed from the map while it is removed from it.
-/

namespace Turna.Node
open Net Lib Session StateBackend List Guarded StateT

inductive Shard where
  | allocations (index : Nat)
  | relayToClient (index : Nat)
  | idToClient (index : Nat)
  | channelToClient (index : Nat)
  | userAllocations (index : Nat)
  deriving DecidableEq

structure Sharding where
  count : Nat
  allocations : SocketAddr → Fin count
  relayToClient : SocketAddr → Fin count
  idToClient : String → Fin count
  channelToClient : UInt16 × UInt16 → Fin count
  userAllocations : UserKey → Fin count

structure AdminNode where
  store : AllocationStore
  activeAllocations : Int

namespace Sharding

variable (sharding : Sharding)

/-- The write lock a statement takes. Counters are read through short-lived guards; pools and totals have locks of
their own. -/
def lock : Stmt → Option Shard
  | .unlinkChannel port channel => some (.channelToClient (sharding.channelToClient (port, channel)))
  | .unlinkRelay relayAddr => some (.relayToClient (sharding.relayToClient relayAddr))
  | .unlinkId allocationId => some (.idToClient (sharding.idToClient allocationId))
  | .unlinkUser key _ => some (.userAllocations (sharding.userAllocations key))
  | .releaseGlobal => none
  | .releaseTenant _ => none
  | .releaseUser _ => none
  | .accrueTenantTraffic _ => none
  | .emitUsageStop .. => none
  | .releasePort _ => none
  | .emitWrite _ => none

def shardEntries (order : IterOrder) (store : AllocationStore) (i : Fin sharding.count) :
    List (SocketAddr × Allocation) :=
  (order.visit store.allocations.entries).filter (fun e => sharding.allocations e.1 = i)

def iterAll (order : IterOrder) (store : AllocationStore) : List (Shard × List (SocketAddr × Allocation)) :=
  (List.finRange sharding.count).map fun i : Fin sharding.count => (.allocations i, sharding.shardEntries order store i)

variable (order : IterOrder) (clock : Clock)

def forceRemove (clientAddr : SocketAddr) : Guarded Shard AdminNode Unit := do
  let (node, _) ← get
  Guarded.write (.allocations (sharding.allocations clientAddr)) fun node =>
    { node with store := { node.store with allocations := node.store.allocations.remove clientAddr } }
  match node.store.allocations.get clientAddr with
  | none => pure ()
  | some alloc =>
    Guarded.updateAll sharding.lock (fun stmt node => { node with store := stmt.exec node.store })
      (forceRemoveScript order clock.epochMs clientAddr alloc)

/-- The arms of the `match`; its end drops the iterator and the item. -/
def removeFound : Option (SocketAddr × Allocation) → Guarded Shard AdminNode (CommandStatus × String)
  | some (_, a) => do
    sharding.forceRemove order clock a.clientAddr
    Guarded.update fun node => { node with activeAllocations := node.activeAllocations - 1 }
    Guarded.release
    pure (.done, "")
  | none => do
    Guarded.release
    pure (.done, "allocation not present (already removed)")

def deleteAllocation (relayId : String) : Guarded Shard AdminNode (CommandStatus × String) := do
  let (node, _) ← get
  let item ← Guarded.find (fun a => a.relayAddr.toString == relayId) (sharding.iterAll order node.store) none
  sharding.removeFound order clock item

def applyCommand (cmd : PendingCommand) : Guarded Shard AdminNode (CommandStatus × String) :=
  if cmd.op = "delete_allocation" then
    match cmd.args.head? with
    | none => pure (.failed, "delete_allocation: missing relay id arg")
    | some relayId => sharding.deleteAllocation order clock relayId
  else pure (.failed, "unknown command op: " ++ cmd.op)

def found (store : AllocationStore) (cmd : PendingCommand) : Option (Shard × SocketAddr × Allocation) :=
  if cmd.op = "delete_allocation" then
    cmd.args.head?.bind fun relayId =>
      Guarded.firstMatch (fun a => a.relayAddr.toString == relayId) (sharding.iterAll order store)
  else none

variable {sharding order clock}

variable {node : AdminNode} {g : Shard} {cmd : PendingCommand} {clientAddr c : SocketAddr} {store : AllocationStore}
  {a : Allocation} {held : List Shard}

theorem forceRemove_blocks (h : .allocations (sharding.allocations clientAddr) ∈ held) :
    (sharding.forceRemove order clock clientAddr).run (node, held) =
      .error (.allocations (sharding.allocations clientAddr)) := by
  have hWait : ∀ f : AdminNode → AdminNode,
      (write (.allocations (sharding.allocations clientAddr)) f).run (node, held) =
        .error (.allocations (sharding.allocations clientAddr)) := fun f => if_pos h
  rw [forceRemove, run_bind, run_get, pure_bind]
  rw [run_bind, hWait]
  rfl

theorem foldl_exec (script : List Stmt) (node : AdminNode) :
    script.foldl (fun node stmt => { node with store := stmt.exec node.store }) node =
      { node with store := node.store.runScript script } := by
  induction script generalizing node with
  | nil => rfl
  | cons stmt script ih => exact ih _

theorem forceRemove_returns
    (hGuard : ∃ i, g = .allocations i) (h : g ≠ .allocations (sharding.allocations clientAddr)) :
    (sharding.forceRemove order clock clientAddr).run (node, [g]) =
      .ok ((), { node with store := node.store.forceRemove order clock clientAddr }, [g]) := by
  have hWrite : ∀ f : AdminNode → AdminNode,
      (write (.allocations (sharding.allocations clientAddr)) f).run (node, [g]) = .ok ((), f node, [g]) :=
    fun f => if_neg fun hIn => h (mem_singleton.mp hIn).symm
  have hFree : ∀ stmt : Stmt, ∀ g' ∈ sharding.lock stmt, g' ∉ [g] := by
    obtain ⟨i, rfl⟩ := hGuard
    intro stmt g' hLock hIn
    rw [mem_singleton] at hIn
    subst hIn
    cases stmt <;> cases hLock
  rw [forceRemove, run_bind, run_get, pure_bind]
  rw [run_bind, hWrite]
  cases hGet : node.store.allocations.get clientAddr with
  | none =>
    rw [AllocationStore.forceRemove, hGet, HashMap.remove_of_get_none hGet]
    rfl
  | some alloc =>
    rw [AllocationStore.forceRemove, hGet]
    refine (updateAll_run (fun stmt _ => hFree stmt) _).trans ?_
    rw [foldl_exec]

theorem found_spec (h : sharding.found order store cmd = some (g, c, a)) :
    g = .allocations (sharding.allocations c) ∧ store.allocations.get c = some a ∧ cmd.op = "delete_allocation" ∧
      cmd.args.head? = some a.relayAddr.toString := by
  rw [found] at h
  split at h
  · next hOp =>
    obtain ⟨relayId, hArg, hMatch⟩ := Option.bind_eq_some_iff.mp h
    obtain ⟨entries, hShard, hEntry, hRelay⟩ := firstMatch_eq_some hMatch
    obtain ⟨i, -, hEq⟩ := mem_map.mp hShard
    cases hEq
    obtain ⟨hIn, hIndex⟩ := mem_filter.mp hEntry
    refine ⟨by rw [of_decide_eq_true hIndex], HashMap.mem_entries_iff.mp (order.mem_visit.mp hIn), hOp, ?_⟩
    rw [hArg, eq_of_beq hRelay]
  · cases h

theorem exists_found {cmd : PendingCommand}
    (hGet : store.allocations.get c = some a) (hOp : cmd.op = "delete_allocation")
    (hArg : cmd.args.head? = some a.relayAddr.toString) : ∃ g c' a', sharding.found order store cmd = some (g, c', a') := by
  rw [found, if_pos hOp, hArg]
  cases hMatch : firstMatch (fun a' => a'.relayAddr.toString == a.relayAddr.toString)
      (sharding.iterAll order store) with
  | some e => exact ⟨e.1, e.2.1, e.2.2, hMatch⟩
  | none =>
    have hEntry : (c, a) ∈ sharding.shardEntries order store (sharding.allocations c) :=
      mem_filter.mpr ⟨order.mem_visit.mpr (HashMap.mem_entries_iff.mpr hGet), decide_eq_true rfl⟩
    have hNot := firstMatch_eq_none hMatch (mem_map.mpr ⟨_, mem_finRange _, rfl⟩) hEntry
    rw [beq_self_eq_true] at hNot
    cases hNot

theorem deleteAllocation_run {relayId : String} {item : Option (SocketAddr × Allocation)}
    (h : (find (fun a => a.relayAddr.toString == relayId)
      (sharding.iterAll order node.store) none).run (node, []) = .ok (item, node, held)) :
    (sharding.deleteAllocation order clock relayId).run (node, []) =
      (sharding.removeFound order clock item).run (node, held) := by
  rw [deleteAllocation, run_bind, run_get, pure_bind]
  rw [run_bind, h]
  rfl

theorem applyCommand_of_found (h : sharding.found order node.store cmd = some (g, c, a)) :
    (sharding.applyCommand order clock cmd).run (node, []) =
      if g = .allocations (sharding.allocations a.clientAddr) then .error g
      else .ok ((.done, ""), ⟨node.store.forceRemove order clock a.clientAddr, node.activeAllocations - 1⟩, []) := by
  obtain ⟨hGuard, -, hOp, hArg⟩ := found_spec h
  rw [found, if_pos hOp, hArg, Option.bind_some] at h
  rw [applyCommand, if_pos hOp, hArg]
  rw [deleteAllocation_run (find_of_match none node h), removeFound, run_bind]
  split
  · next hSame =>
    rw [forceRemove_blocks (by rw [hSame]; exact mem_singleton_self _), ← hSame]
    rfl
  next hOther =>
  rw [forceRemove_returns ⟨_, hGuard⟩ hOther]
  rfl

theorem applyCommand_of_none (h : sharding.found order node.store cmd = none) :
    ∃ answer, (sharding.applyCommand order clock cmd).run (node, []) = .ok (answer, node, []) := by
  rw [found] at h
  rw [applyCommand]
  split at h
  · next hOp =>
    rw [if_pos hOp]
    cases hArg : cmd.args.head? with
    | none => exact ⟨_, rfl⟩
    | some relayId =>
      rw [hArg, Option.bind_some] at h
      obtain ⟨held, hFind⟩ := find_of_none none node h
      refine ⟨(.done, "allocation not present (already removed)"), ?_⟩
      rw [deleteAllocation_run hFind]
      rfl
  · next hOp =>
    rw [if_neg hOp]
    exact ⟨_, rfl⟩

end Sharding

def DeletesLive (store : AllocationStore) (cmd : PendingCommand) : Prop :=
  cmd.op = "delete_allocation" ∧ ∃ c a, store.allocations.get c = some a ∧ cmd.args.head? = some a.relayAddr.toString

namespace OneDeletion

def relay : SocketAddr := .v4 ⟨192, 0, 2, 1⟩ 40000

def node : AdminNode where
  store := ((AllocationStore.new 40000 40001 0 10).createForIdentity ⟨0, 0⟩
    ⟨.v4 ⟨10, 0, 0, 1⟩ 5000, relay, "alice", [], 600, "example.org", none⟩).2
  activeAllocations := 1

def sharding : Sharding where
  count := 1
  allocations _ := 0
  relayToClient _ := 0
  idToClient _ := 0
  channelToClient _ := 0
  userAllocations _ := 0

def command : PendingCommand where
  requestId := "r1"
  targetNodeId := "n1"
  op := "delete_allocation"
  args := [relay.toString]
  payloadJson := ""
  targetIncarnation := ""
  status := .inProgress
  result := .plain ""
  createdAtMs := 0
  updatedAtMs := 0
  claimedBy := "n1"
  leaseUntilMs := 30000
  attempts := 1
  claimToken := "t1"
  idempotencyKey := ""

end OneDeletion

/-- The thread waits for a lock that it keeps from itself. -/
theorem live_deletion_waits :
    (OneDeletion.sharding.applyCommand .stored ⟨0, 0⟩ OneDeletion.command).run (OneDeletion.node, []) =
      .error (.allocations 0) :=
  rfl

/-- A command returns exactly if it finds no allocation in the shard of its own client address. -/
theorem deletion_returns_iff (sharding : Sharding) (order : IterOrder) (clock : Clock) (node : AdminNode)
    (cmd : PendingCommand) :
    ((∃ result, (sharding.applyCommand order clock cmd).run (node, []) = .ok result) ↔
      ∀ g c a, sharding.found order node.store cmd = some (g, c, a) →
        sharding.allocations c ≠ sharding.allocations a.clientAddr) ∧
    (ClientKeyed node.store →
      ((∃ result, (sharding.applyCommand order clock cmd).run (node, []) = .ok result) ↔
        ¬DeletesLive node.store cmd)) := by
  have hReturns : (∃ result, (sharding.applyCommand order clock cmd).run (node, []) = .ok result) ↔
      ∀ g c a, sharding.found order node.store cmd = some (g, c, a) →
        sharding.allocations c ≠ sharding.allocations a.clientAddr := by
    constructor
    · rintro ⟨result, hRun⟩ g c a hFound hSame
      obtain ⟨hGuard, -⟩ := Sharding.found_spec hFound
      rw [Sharding.applyCommand_of_found hFound, if_pos (by rw [hGuard, hSame])] at hRun
      cases hRun
    · intro h
      cases hFound : sharding.found order node.store cmd with
      | none =>
        obtain ⟨answer, hRun⟩ := Sharding.applyCommand_of_none hFound
        exact ⟨_, hRun⟩
      | some e =>
        obtain ⟨g, c, a⟩ := e
        obtain ⟨hGuard, -⟩ := Sharding.found_spec hFound
        have hOther : g ≠ .allocations (sharding.allocations a.clientAddr) := by
          intro hSame
          refine h g c a hFound (Fin.ext ?_)
          injection hGuard.symm.trans hSame
        exact ⟨_, (Sharding.applyCommand_of_found hFound).trans (if_neg hOther)⟩
  refine ⟨hReturns, fun hKeyed => hReturns.trans ⟨?_, ?_⟩⟩
  · rintro h ⟨hOp, c, a, hGet, hArg⟩
    obtain ⟨g, c', a', hFound⟩ := @Sharding.exists_found sharding order _ _ _ _ hGet hOp hArg
    obtain ⟨-, hGet', -⟩ := Sharding.found_spec hFound
    exact h g c' a' hFound (by rw [hKeyed c' a' hGet'])
  · intro h g c a hFound
    obtain ⟨-, hGet, hOp, hArg⟩ := Sharding.found_spec hFound
    exact absurd ⟨hOp, c, a, hGet, hArg⟩ h

end Turna.Node
