import Mathlib.Algebra.BigOperators.Group.Multiset.Basic
import Mathlib.Algebra.Order.BigOperators.Group.Multiset
import Mathlib.Algebra.Order.Group.Nat
import Turna.Node.Coalescing
import Turna.Session.Teardown

/-! # The write log under interleaving

A worker sends its Create after it has published the allocation, and its Remove after it has given
the port back. The order of the log is the order of the sends, not of the map accesses.
-/

namespace Turna.Node
open Lib Net Session StateBackend AllocationStore List Option

def unsent? (t : Terminal) (stmt : Stmt) : Option UInt16 :=
  stmt.op?.bind fun op => if op.terminal = some t then some op.relayPort else none

def unsent (t : Terminal) (call : Call) : Multiset UInt16 := (call.owed.filterMap (unsent? t) : List UInt16)

def claims (port : UInt16) (call : Call) : Nat := max (call.ports.count port) ((unsent .remove call).count port)

def queued (w : World) : List WriteOp := (w.store.writeTx.map Channel.sent).getD []

def accepts (w : World) : Bool :=
  w.store.writeTx.any fun tx => !tx.closed && decide (tx.sent.length - tx.received < tx.capacity)

def delivers (w : World) (call : Call) : Bool := (call.owed.head?.bind Stmt.op?).isNone || accepts w

/-- Creations on drawn ports, removals and the sweep; no event is dropped. -/
def logCallers (w : World) : Label Call Env → Bool
  | .start (.allocate _) | .start (.remove ..) | .start (.forceRemove _) | .start (.cleanup _) => true
  | .start _ => false
  | .advance (.allocate req) _ => w.drawsHome req
  | .advance call _ => delivers w call

/-- No port is drawn while its Remove is still to be sent, and no allocation removed while its Create is. -/
def sendsFirst (w : World) (rest : Multiset Call) : Label Call Env → Bool
  | .advance (.allocate req) _ =>
    match (w.store.poolAt (w.store.poolId req.tenantId)).allocate.1 with
    | .ok port => port ∉ (rest.map (unsent .remove)).sum
    | .error _ => true
  | .advance (.remove c r) _ | .advance (.removeExpired c r _) _ =>
    (w.store.allocations.get c).all fun a =>
      a.relayAddr = r ∧ a.relayAddr.port ∉ (rest.map (unsent .create)).sum
  | .advance (.forceRemove c) _ =>
    (w.store.allocations.get c).all fun a => a.relayAddr.port ∉ (rest.map (unsent .create)).sum
  | _ => true

def logged : Call → Bool
  | .rehydrate _ | .reKey .. | .reKeyClaim .. | .reKeyBack .. | .portReserved .. => false
  | .admission (.rehydrate ..) .. | .reserved (.rehydrate ..) | .claim (.rehydrate ..) _ => false
  | _ => true

variable {w : World} {env : Env} {call : Call}

theorem logged_removeWith {w' : World} {call' missing : Call} {c : SocketAddr} {script : Allocation → List Stmt}
    {expired : Option (List (SocketAddr × SocketAddr))} (hMissing : logged missing = true)
    (h : some (Call.removeWith w c script expired missing) = some (w', call')) : logged call' = true := by
  have hNext := some.inj h
  rw [Call.removeWith] at hNext
  split at hNext <;> cases hNext
  · exact hMissing
  · rfl

theorem logged_next {w' : World} {call' : Call} (h : call.next env w = some (w', call'))
    (hLogged : logged call = true) : logged call' = true := by
  cases call with
  | admission job caps kind stage =>
    cases job with
    | rehydrate => cases hLogged
    | create req onFail =>
      obtain ⟨c, -, hNext⟩ := bind_eq_some_iff.mp h
      cases stage with
      | entry =>
        rw [Call.reserveCounter] at hNext
        split at hNext <;> cases hNext
        rfl
      | add =>
        rw [Call.reserveCounter] at hNext
        split at hNext
        · cases hNext
          rfl
        cases hNext
        cases kind with
        | user =>
          rw [Call.charged]
          split <;> rfl
        | _ => rfl
      | undo =>
        cases hNext
        rfl
  | create req onFail =>
    cases h
    rw [Call.reserveFor]
    split <;> rfl
  | allocate req | pruneLists =>
    rw [Call.next] at h
    split at h <;> cases h <;> rfl
  | reserved job =>
    cases job with
    | rehydrate => cases hLogged
    | create req onFail =>
      cases h
      rfl
  | claim job allocationId =>
    cases job with
    | rehydrate => cases hLogged
    | create req onFail =>
      rw [Call.next] at h
      split at h <;> cases h <;> rfl
  | rollback todo =>
    cases todo with
    | nil =>
      cases h
      rfl
    | cons stmt todo =>
      obtain ⟨w₁, -, hNext⟩ := map_eq_some_iff.mp h
      cases hNext
      rfl
  | remove c r | forceRemove c | removeExpired c r expired => exact logged_removeWith rfl h
  | refresh c lifetime =>
    rw [Call.next] at h
    split at h
    · cases h
      rfl
    · split at h <;> cases h <;> rfl
  | teardown todo expired =>
    cases todo with
    | nil => cases expired <;> cases h <;> rfl
    | cons stmt todo =>
      obtain ⟨w₁, -, hNext⟩ := map_eq_some_iff.mp h
      cases hNext
      rfl
  | sweepPools maxOps ids => cases ids <;> cases h <;> rfl
  | scan maxOps seen found =>
    rw [Call.next] at h
    split at h
    · cases h
      rfl
    split at h
    · cases h
    · split at h <;> cases h
      rfl
  | pruneEntries toClean expired => cases toClean <;> cases h <;> rfl
  | recheck expired =>
    cases expired with
    | nil =>
      cases h
      rfl
    | cons e expired =>
      rw [Call.next] at h
      split at h <;> cases h <;> rfl
  | pruneCounts =>
    rw [Call.next] at h
    split at h
    · cases h
      rfl
    · split at h <;> cases h
      rfl
  | send op | cleanup maxOps =>
    cases h
    rfl
  | done => cases h
  | _ => cases hLogged

/-! ## What one access does to a port -/

section Unsent

variable {call call' : Call} {t : Terminal} {ops : List WriteOp}

theorem unsent_of_ops (h : call.owed.filterMap Stmt.op? = ops) :
    unsent t call = (ops.filterMap fun op => if op.terminal = some t then some op.relayPort else none : List UInt16) := by
  rw [unsent, ← h, filterMap_filterMap]
  rfl

theorem unsent_touch (hOwed : call.owed = ops.map Stmt.emitWrite)
    (hTouch : ∀ op ∈ ops, op.terminal = none) : unsent t call = 0 := by
  rw [unsent, hOwed, filterMap_map]
  have hNil : ops.filterMap (unsent? t ∘ Stmt.emitWrite) = [] := by
    rw [filterMap_eq_nil_iff]
    intro op hMem
    simp [unsent?, Stmt.op?, hTouch op hMem]
  rw [hNil]
  rfl

theorem unsent_none (h : call.owed.filterMap Stmt.op? = []) : unsent t call = 0 := by
  rw [unsent_of_ops h]
  rfl

theorem unsent_cons {stmt : Stmt} (hOwed : call.owed = stmt :: call'.owed) (port : UInt16) :
    (unsent t call).count port = (unsent t call').count port + if unsent? t stmt = some port then 1 else 0 := by
  rw [unsent, unsent, hOwed, filterMap_cons]
  cases h : unsent? t stmt with
  | none => simp
  | some port' => simp [count_cons]

theorem unsent_release {c : Counter} (hOwed : call.owed = c.release :: call'.owed) : unsent t call = unsent t call' := by
  have hNone : unsent? t c.release = none := by
    cases c <;> rfl
  rw [unsent, hOwed, filterMap_cons, hNone]
  rfl

theorem unsent_teardown {a : Allocation} {c r : SocketAddr} (h : IsTeardown call.owed a c r) :
    unsent .create call = 0 ∧ unsent .remove call = {r.port} := by
  rw [unsent_of_ops h.ops, unsent_of_ops h.ops]
  exact ⟨rfl, rfl⟩

end Unsent

theorem count_sum (f : Call → Multiset UInt16) (calls : Multiset Call) (port : UInt16) :
    (calls.map f).sum.count port = (calls.map fun call => (f call).count port).sum := by
  induction calls using Multiset.induction_on with
  | empty => rfl
  | cons call calls ih => simp [ih]

theorem terminals_concat (port : UInt16) (ops : List WriteOp) (op : WriteOp) :
    terminals port (ops ++ [op]) = terminals port ops ++ if op.relayPort = port then op.terminal.toList else [] := by
  rw [terminals, portOps_append, filterMap_append, terminals]
  congr 1
  rw [portOps]
  split
  · next h => cases hOp : op.terminal <;> simp [h, hOp]
  · next h => simp [h]

theorem queued_send (h : accepts w = true) (op : WriteOp) (guards : Multiset Counter) :
    queued ⟨w.store.emitWrite op, guards⟩ = queued w ++ [op] := by
  rw [accepts] at h
  rw [queued, queued, emitWrite]
  cases hTx : w.store.writeTx with
  | none =>
    rw [hTx] at h
    cases h
  | some tx =>
    rw [hTx, any_some, Bool.and_eq_true, Bool.not_eq_true', decide_eq_true_eq] at h
    have hSend : tx.trySend op = (.ok, { tx with sent := tx.sent ++ [op] }) := by
      rw [Channel.trySend, h.1, if_neg Bool.false_ne_true, if_neg (Nat.not_le.mpr h.2)]
    simp only [hSend]
    rfl

theorem writeTx_updatePool (s : AllocationStore) (f : PortAllocator → PortAllocator) (id : AllocationStore.PoolId) :
    (s.updatePool f id).writeTx = s.writeTx := by
  cases id <;> rfl

theorem writeTx_exec (s : AllocationStore) {stmt : Stmt} (h : stmt.op? = none) :
    (stmt.exec s).writeTx = s.writeTx := by
  cases stmt with
  | emitWrite op => cases h
  | emitUsageStop alloc reason epochMs =>
    rw [Stmt.exec, emitUsageStop]
    split
    · rfl
    · split <;> rfl
  | accrueTenantTraffic alloc =>
    rw [Stmt.exec, accrueTenantTraffic]
    split <;> rfl
  | releasePort port => exact writeTx_updatePool ..
  | _ => rfl

/-- Live, claimed by one call or neither; the last event sent is a Create if it is live with its Create sent or its
Remove is to come. -/
structure PortOk (live claimed toCreate toRemove : Nat) (last : Option Terminal) : Prop where
  once : live + claimed ≤ 1
  published : toCreate ≤ live
  log : last = some .create ↔ toCreate < live + toRemove

structure LogInvariant (w : World) (calls : Multiset Call) : Prop where
  ledger : LedgerInvariant w calls
  logged : ∀ call ∈ calls, logged call = true
  ports : ∀ port, PortOk ((portsOf w.store.allocations).count port) (calls.map (claims port)).sum
    (calls.map fun call => (unsent .create call).count port).sum
    (calls.map fun call => (unsent .remove call).count port).sum (terminals port (queued w)).getLast?

theorem delivers_of_callers (h : logCallers w (.advance call env) = true) : delivers w call = true := by
  cases call <;> first | exact h | rfl

theorem op?_release (c : Counter) : c.release.op? = none := by
  cases c <;> rfl

theorem sendsFirst_removal {rest : Multiset Call} {c r : SocketAddr}
    {a : Allocation} (h : sendsFirst w rest (.advance call env) = true) (hCall : call.removal = some (c, r))
    (hGet : w.store.allocations.get c = some a) :
    a.relayAddr = r ∧ a.relayAddr.port ∉ (rest.map (unsent .create)).sum := by
  cases call with
  | remove c' r' | removeExpired c' r' expired =>
    cases hCall
    rw [sendsFirst, hGet] at h
    exact of_decide_eq_true h
  | _ => cases hCall

namespace LogInvariant

variable {w w' : World} {call call' : Call} {rest : Multiset Call}

/-- Port by port: `old` and `others` are what the port was like for the call and for the other calls. -/
theorem advance (h : LogInvariant w (call ::ₘ rest)) (hLedger : LedgerInvariant w' (call' ::ₘ rest))
    (hLogged : Node.logged call' = true)
    (hPort : ∀ port claimed toCreate toRemove, toRemove ≤ claimed →
      claimed = (rest.map (claims port)).sum →
      toCreate = (rest.map fun call => (unsent .create call).count port).sum →
      toRemove = (rest.map fun call => (unsent .remove call).count port).sum →
      PortOk ((portsOf w.store.allocations).count port) (claims port call + claimed)
        ((unsent .create call).count port + toCreate) ((unsent .remove call).count port + toRemove)
        (terminals port (queued w)).getLast? →
      PortOk ((portsOf w'.store.allocations).count port) (claims port call' + claimed)
        ((unsent .create call').count port + toCreate) ((unsent .remove call').count port + toRemove)
        (terminals port (queued w')).getLast?) : LogInvariant w' (call' ::ₘ rest) where
  ledger := hLedger
  logged other hMem := by
    obtain rfl | hMem := Multiset.mem_cons.mp hMem
    · exact hLogged
    · exact h.logged other (Multiset.mem_cons_of_mem hMem)
  ports port := by
    have hOld := h.ports port
    simp only [Multiset.map_cons, Multiset.sum_cons] at hOld ⊢
    refine hPort port _ _ _ ?_ rfl rfl rfl hOld
    exact Multiset.sum_map_le_sum_map _ _ fun call _ => Nat.le_max_right _ _

theorem same (h : LogInvariant w (call ::ₘ rest)) (hLedger : LedgerInvariant w' (call' ::ₘ rest))
    (hLogged : Node.logged call' = true) (hLive : portsOf w'.store.allocations = portsOf w.store.allocations)
    (hTx : w'.store.writeTx = w.store.writeTx) (hPorts : call'.ports = call.ports)
    (hUnsent : ∀ t, unsent t call' = unsent t call) : LogInvariant w' (call' ::ₘ rest) := by
  refine h.advance hLedger hLogged fun port claimed toCreate toRemove _ _ _ _ hOld => ?_
  rw [claims, hPorts, hUnsent, hUnsent, hLive, queued, hTx]
  exact hOld

theorem exec {stmt : Stmt} (h : LogInvariant w (call ::ₘ rest)) (hOwed : call.owed = stmt :: call'.owed)
    (hLedger : LedgerInvariant ⟨stmt.exec w.store, w.guards⟩ (call' ::ₘ rest)) (hLogged : Node.logged call' = true)
    (hSend : stmt.op?.isSome = true → accepts w = true) :
    LogInvariant ⟨stmt.exec w.store, w.guards⟩ (call' ::ₘ rest) := by
  have hLive : (stmt.exec w.store).allocations = w.store.allocations := runScript_allocations w.store [stmt]
  refine h.advance hLedger hLogged fun port claimed toCreate toRemove hLe _ _ _ hOld => ?_
  have hCreate := unsent_cons (t := .create) hOwed port
  have hRemove := unsent_cons (t := .remove) hOwed port
  have hHand : call'.ports.count port ≤ call.ports.count port := by
    rw [Call.ports, Call.ports, hOwed, Multiset.coe_count, Multiset.coe_count]
    exact ((sublist_cons_self stmt call'.owed).filterMap Stmt.port?).count_le port
  have hClaims : claims port call' ≤ claims port call := by
    rw [claims, claims]
    omega
  have hMax : (unsent .remove call).count port ≤ claims port call := Nat.le_max_right _ _
  obtain ⟨hOnce, hPublished, hLog⟩ := hOld
  rw [hLive]
  cases hOp : stmt.op? with
  | none =>
    have hTx := writeTx_exec w.store hOp
    simp only [unsent?, hOp, bind_none, reduceCtorEq, if_false] at hCreate hRemove
    rw [show queued ⟨stmt.exec w.store, w.guards⟩ = queued w by rw [queued, hTx]; rfl]
    refine ⟨by omega, by omega, hLog.trans ?_⟩
    omega
  | some op =>
    obtain rfl : stmt = .emitWrite op := by
      cases stmt <;> first | cases hOp; rfl | cases hOp
    have hQueued : queued ⟨(Stmt.emitWrite op).exec w.store, w.guards⟩ = queued w ++ [op] :=
      queued_send (hSend rfl) op w.guards
    rw [hQueued, terminals_concat]
    cases hTerminal : op.terminal with
    | none =>
      simp only [unsent?, Stmt.op?, bind_some, hTerminal, reduceCtorEq, if_false] at hCreate hRemove
      rw [toList_none, ite_self, append_nil]
      exact ⟨by omega, by omega, hLog.trans (by omega)⟩
    | some t =>
      by_cases hPort : op.relayPort = port
      · rw [if_pos hPort, toList_some, getLast?_concat]
        cases t with
        | create =>
          -- The port is live, and this was its only Create to come.
          simp only [unsent?, Stmt.op?, bind_some, hTerminal, hPort, some.injEq, reduceCtorEq, if_true,
            if_false] at hCreate hRemove
          exact ⟨by omega, by omega, iff_of_true rfl (by omega)⟩
        | remove =>
          -- The call claims the port, so it is not live and no other call claims it.
          simp only [unsent?, Stmt.op?, bind_some, hTerminal, hPort, some.injEq, reduceCtorEq, if_true,
            if_false] at hCreate hRemove
          exact ⟨by omega, by omega, iff_of_false (by decide) (by omega)⟩
      · rw [if_neg hPort, append_nil]
        have hOther : ∀ t', unsent? t' (.emitWrite op) ≠ some port := by
          intro t' hSome
          rw [unsent?, Stmt.op?, bind_some] at hSome
          split at hSome
          · exact hPort (some.inj hSome)
          · cases hSome
        rw [if_neg (hOther _)] at hCreate hRemove
        exact ⟨by omega, by omega, hLog.trans (by omega)⟩

section

variable {s' : AllocationStore} (h : LogInvariant w (call ::ₘ rest))
  (hLedger : LedgerInvariant ⟨s', w.guards⟩ (call' ::ₘ rest)) (hLogged : Node.logged call' = true)
include h hLedger hLogged

variable {port₀ : UInt16}

theorem draw (hLive : s'.allocations = w.store.allocations) (hTx : s'.writeTx = w.store.writeTx)
    (hNone : ∀ t, unsent t call = 0) (hNone' : ∀ t, unsent t call' = 0) (hPorts : call'.ports = {port₀})
    (hFree : port₀ ∉ (rest.map (unsent .remove)).sum) : LogInvariant ⟨s', w.guards⟩ (call' ::ₘ rest) := by
  refine h.advance hLedger hLogged fun port claimed toCreate toRemove _ hClaimed hToCreate hToRemove hOld => ?_
  obtain ⟨hOnce, hPublished, hLog⟩ := hOld
  have hCall : claims port call' = if port = port₀ then 1 else 0 := by
    rw [claims, hNone', hPorts, Multiset.count_zero, Multiset.count_singleton]
    split <;> rfl
  rw [hNone, Multiset.count_zero] at hPublished hLog
  rw [hNone, Multiset.count_zero] at hLog
  rw [hNone', hNone', Multiset.count_zero, hCall]
  rw [show queued ⟨s', w.guards⟩ = queued w by rw [queued, hTx]; rfl, hLive]
  refine ⟨?_, hPublished, hLog⟩
  split
  · next hEq =>
    subst hEq
    have hNodup := Multiset.nodup_iff_count_le_one.mp hLedger.ledger.nodup port
    rw [Multiset.map_cons, Multiset.sum_cons, hPorts, hLive, Multiset.count_add, Multiset.count_add,
      Multiset.count_singleton_self, count_sum] at hNodup
    have hSent : (rest.map fun call => (unsent .remove call).count port).sum = 0 := by
      rw [← count_sum, Multiset.count_eq_zero]
      exact hFree
    have hSplit : claimed ≤ (rest.map fun call => call.ports.count port).sum +
        (rest.map fun call => (unsent .remove call).count port).sum := by
      rw [hClaimed, ← Multiset.sum_map_add]
      exact Multiset.sum_map_le_sum_map _ _ fun call _ => by rw [claims]; omega
    omega
  · omega

theorem publish
    (hLive : portsOf s'.allocations = port₀ ::ₘ portsOf w.store.allocations) (hTx : s'.writeTx = w.store.writeTx)
    (hPorts : call.ports = {port₀}) (hNone : ∀ t, unsent t call = 0) (hDone : call'.ports = 0)
    (hCreate : unsent .create call' = {port₀}) (hRemove : unsent .remove call' = 0) :
    LogInvariant ⟨s', w.guards⟩ (call' ::ₘ rest) := by
  refine h.advance hLedger hLogged fun port claimed toCreate toRemove _ _ _ _ hOld => ?_
  obtain ⟨hOnce, hPublished, hLog⟩ := hOld
  rw [claims, hPorts, hNone, Multiset.count_zero, Multiset.count_singleton] at hOnce
  rw [hNone, Multiset.count_zero] at hPublished hLog
  rw [hNone, Multiset.count_zero] at hLog
  rw [show queued ⟨s', w.guards⟩ = queued w by rw [queued, hTx]; rfl, hLive, claims, hDone, hCreate, hRemove,
    Multiset.count_cons, Multiset.count_singleton, Multiset.count_zero]
  generalize (if port = port₀ then 1 else 0) = n at hOnce ⊢
  exact ⟨by omega, by omega, hLog.trans (by omega)⟩

theorem leave
    (hLive : portsOf w.store.allocations = port₀ ::ₘ portsOf s'.allocations) (hTx : s'.writeTx = w.store.writeTx)
    (hNone : ∀ t, unsent t call = 0) (hPorts : call'.ports = {port₀}) (hCreate : unsent .create call' = 0)
    (hRemove : unsent .remove call' = {port₀}) (hSent : port₀ ∉ (rest.map (unsent .create)).sum) :
    LogInvariant ⟨s', w.guards⟩ (call' ::ₘ rest) := by
  refine h.advance hLedger hLogged fun port claimed toCreate toRemove _ _ hToCreate _ hOld => ?_
  obtain ⟨hOnce, hPublished, hLog⟩ := hOld
  have hZero : port = port₀ → toCreate = 0 := by
    intro hEq
    rw [hToCreate, ← count_sum, Multiset.count_eq_zero, hEq]
    exact hSent
  have hOne : ∀ n : Nat, (n = if port = port₀ then 1 else 0) → n ≤ 1 ∧ (n = 0 ∨ toCreate = 0) := by
    intro n hn
    by_cases hEq : port = port₀
    · rw [hn, if_pos hEq]
      exact ⟨Nat.le_refl 1, .inr (hZero hEq)⟩
    · rw [hn, if_neg hEq]
      exact ⟨Nat.zero_le 1, .inl rfl⟩
  rw [hLive, Multiset.count_cons] at hOnce hPublished hLog
  rw [hNone, Multiset.count_zero] at hPublished hLog
  rw [hNone, Multiset.count_zero] at hLog
  change PortOk ((portsOf s'.allocations).count port) _ _ _ (terminals port (queued ⟨s', w.guards⟩)).getLast?
  rw [show queued ⟨s', w.guards⟩ = queued w by rw [queued, hTx]; rfl, claims, hPorts, hCreate, hRemove,
    Multiset.count_singleton, Multiset.count_zero]
  generalize hn : (if port = port₀ then 1 else 0) = n at hOnce hPublished hLog ⊢
  obtain ⟨hLe, hCase⟩ := hOne n hn.symm
  exact ⟨by omega, by omega, hLog.trans (by omega)⟩

end

theorem act {env : Env} {s' : AllocationStore} (h : LogInvariant w (call ::ₘ rest))
    (hAct : Act env call w.store call' s') (hLedger : LedgerInvariant ⟨s', w.guards⟩ (call' ::ₘ rest))
    (hLogged : Node.logged call' = true) (hCallers : logCallers w (.advance call env) = true)
    (hSends : sendsFirst w rest (.advance call env) = true) : LogInvariant ⟨s', w.guards⟩ (call' ::ₘ rest) := by
  have hOld := h.logged call (Multiset.mem_cons_self ..)
  cases hAct with
  | quiet hStore hOwed =>
    exact h.same hLedger hLogged (by rw [hStore.allocations]) hStore.writeTx (by rw [Call.ports, Call.ports, hOwed])
      (fun t => by rw [unsent, unsent, hOwed])
  | exec hOwed =>
    refine h.exec hOwed hLedger hLogged fun hSome => ?_
    have hDelivers := delivers_of_callers hCallers
    rw [delivers, hOwed, head?_cons, bind_some, ← not_isSome, hSome] at hDelivers
    exact hDelivers
  | edit hGet hSame hNone hOwed hTouch =>
    refine h.same hLedger hLogged (portsOf_update hGet hSame.relayAddr) rfl ?_ fun t => ?_
    · rw [Call.ports, Call.ports, hNone, hOwed, ports_emits]
      rfl
    · rw [unsent_touch hOwed hTouch, unsent, hNone]
      rfl
  | @draw req _ port hPort =>
    refine h.draw hLedger hLogged (sameIndex_updatePool ..).allocations (writeTx_updatePool ..) (fun _ => rfl)
      (fun _ => rfl) rfl ?_
    rw [sendsFirst, hPort] at hSends
    exact of_decide_eq_true hSends
  | exhausted =>
    exact h.same hLedger hLogged (by rw [(sameIndex_updatePool ..).allocations]) (writeTx_updatePool ..) rfl
      (fun _ => rfl)
  | reserve | lift | lost => cases hOld
  | sweep id now hNone hOwed =>
    exact h.same hLedger hLogged (by rw [(sameIndex_updatePool ..).allocations]) (writeTx_updatePool ..)
      (by rw [Call.ports, Call.ports, hNone, hOwed]) (fun t => by rw [unsent, unsent, hNone, hOwed])
  | @publish job allocationId _ hVacant =>
    cases job with
    | rehydrate => cases hOld
    | create req onFail =>
      have hBacked := h.ledger.jobs _ (Multiset.mem_cons_self ..) _ rfl
      have hPorts : (Call.claim (.create req onFail) allocationId).ports = {req.relayAddr.port} := by
        change ((Job.create req onFail).onTaken.filterMap Stmt.port? : Multiset UInt16) = _
        rw [ports_onTaken hBacked env.clock allocationId]
        rfl
      refine h.publish hLedger hLogged (portsOf_insert hVacant) rfl hPorts (fun t => unsent_none ?_) rfl rfl rfl
      change ((fullReservation _).drop ++ onFail).filterMap Stmt.op? = []
      rw [filterMap_append, filterMap_drop op?_release, show onFail = _ from hBacked]
      rfl
  | @takeOut _ _ _ c r a hCall hGet hTeardown =>
    obtain ⟨hOwn, hSent⟩ := sendsFirst_removal hSends hCall hGet
    have hNone : call.owed = [] := by
      cases call <;> first | rfl | cases hCall
    obtain ⟨hCreate, hRemove⟩ := unsent_teardown hTeardown
    rw [← hOwn] at hRemove
    refine h.leave hLedger hLogged (portsOf_remove hGet) rfl (fun t => by rw [unsent, hNone]; rfl) ?_ hCreate hRemove
      hSent
    rw [Call.ports, hTeardown.ports, hOwn]
    rfl
  | @force _ _ c a hGet hTeardown =>
    obtain ⟨hCreate, hRemove⟩ := unsent_teardown hTeardown
    rw [sendsFirst, hGet] at hSends
    refine h.leave hLedger hLogged (portsOf_remove hGet) rfl (fun _ => rfl) ?_ hCreate hRemove
      (of_decide_eq_true hSends)
    rw [Call.ports, hTeardown.ports]
    rfl
  | land hVacant hSame hCarries =>
    cases call with
    | reKeyClaim | reKeyBack => cases hOld
    | _ => cases hCarries

theorem step {env : Env} (h : LogInvariant w (call ::ₘ rest)) (hNext : call.next env w = some (w', call'))
    (hCallers : logCallers w (.advance call env) = true) (hSends : sendsFirst w rest (.advance call env) = true) :
    LogInvariant w' (call' ::ₘ rest) := by
  have hMove := next_move hNext
  have hLogged := logged_next hNext (h.logged call (Multiset.mem_cons_self ..))
  have hLedger : LedgerInvariant w' (call' ::ₘ rest) := by
    refine h.ledger.step hMove ?_ fun c r a hCall hGet => (sendsFirst_removal hSends hCall hGet).1
    rintro req rfl
    exact hCallers
  cases hMove with
  | act hCalm hCalm' hFollows hAct => exact h.act hAct hLedger hLogged hCallers hSends
  | lock => exact h.same hLedger hLogged (by rw [allocations_entry]) (writeTx_entry ..) rfl fun _ => rfl
  | refuse hCounter =>
    exact h.same hLedger hLogged (by rw [allocations_add]) (writeTx_add ..) (ports_release (owed_undo hCounter))
      fun _ => unsent_release (owed_undo hCounter)
  | charge hCounter hRoom hCalm' hFollows hOwed =>
    exact h.same hLedger hLogged (by rw [allocations_add]) (writeTx_add ..) (ports_release hOwed)
      fun _ => unsent_release hOwed
  | undo hCounter hCalm' hFollows hOwed =>
    exact h.same hLedger hLogged (by rw [allocations_add]) (writeTx_add ..) (ports_release hOwed).symm
      fun _ => (unsent_release hOwed).symm
  | prune => exact h.same hLedger hLogged rfl rfl rfl fun _ => rfl

theorem start (h : LogInvariant w rest) (hCallers : logCallers w (.start call) = true) :
    LogInvariant w (call ::ₘ rest) := by
  have hEntry : call.isEntry = true ∧ call.job? = none ∧ Node.logged call = true ∧ call.owed = [] := by
    cases call <;> first | exact ⟨rfl, rfl, rfl, rfl⟩ | cases hCallers
  obtain ⟨hEntry, hBare, hLogged, hOwed⟩ := hEntry
  have hNone : ∀ t, unsent t call = 0 := fun t => by rw [unsent, hOwed]; rfl
  refine ⟨h.ledger.start hEntry hBare, fun other hMem => ?_, fun port => ?_⟩
  · obtain rfl | hMem := Multiset.mem_cons.mp hMem
    · exact hLogged
    · exact h.logged other hMem
  have hClaims : claims port call = 0 := by
    rw [claims, hNone, Call.ports, hOwed]
    rfl
  simp only [Multiset.map_cons, Multiset.sum_cons, hNone, hClaims, Multiset.count_zero, Nat.zero_add]
  exact h.ports port

theorem initial (setup : Setup) (hQueue : queued setup.world = []) : LogInvariant setup.world 0 where
  ledger := ledgerInvariant_initial setup
  logged _ hMem := by cases Multiset.notMem_zero _ hMem
  ports port := by
    rw [hQueue]
    have hEmpty : (portsOf setup.world.store.allocations).count port = 0 := by
      rw [Setup.world, configured_eq]
      rfl
    rw [hEmpty]
    exact ⟨Nat.zero_le 1, Nat.le_refl 0, iff_of_false (by rintro ⟨⟩) (Nat.lt_irrefl 0)⟩

end LogInvariant

/-- The last Create or Remove of a port is a Create iff a live allocation has the port, and the queue replayed leaves
a row for every live allocation. -/
structure LogAgrees (w : World) : Prop where
  last : ∀ port, (terminals port (queued w)).getLast? = some .create ↔
    ∃ c a, w.store.allocations.get c = some a ∧ a.relayAddr.port = port
  rows : ∀ order nodeId realm backend c a, w.store.allocations.get c = some a →
    ((flushAll order nodeId realm backend ((queued w).map ([·]))).getAllocation a.relayAddr.port).isSome = true

theorem LogInvariant.agrees {calls : Multiset Call} (h : LogInvariant w calls)
    (hIdle : ∀ call ∈ calls, call = .done) : LogAgrees w := by
  have hLast : ∀ port, (terminals port (queued w)).getLast? = some .create ↔
      ∃ c a, w.store.allocations.get c = some a ∧ a.relayAddr.port = port := by
    intro port
    have hNone : ∀ t, (calls.map fun call => (unsent t call).count port).sum = 0 := by
      intro t
      refine Multiset.sum_eq_zero fun n hMem => ?_
      obtain ⟨call, hCall, rfl⟩ := Multiset.mem_map.mp hMem
      rw [hIdle call hCall]
      rfl
    have hPort := (h.ports port).log
    rw [hNone, hNone, Nat.add_zero, Multiset.count_pos, mem_portsOf] at hPort
    exact hPort
  refine ⟨hLast, fun order nodeId realm backend c a hGet => ?_⟩
  have hCreate := (hLast a.relayAddr.port).mpr ⟨c, a, hGet, rfl⟩
  rw [(getAllocation_flushAll_singletons (queued w) a.relayAddr.port).isSome_eq,
    isSome_runOps, show ((portOps _ _).filterMap _).getLast? = _ from hCreate]
  rfl

namespace LateRemove
open StaleRelay (client relay allocate steps)

def node : Setup := { StaleRelay.node with writeTx := some ⟨16, [], 0, false⟩ }

/-- Client 3 is given port 40000 before the removal of client 1 has sent its Remove. -/
def overtaken : List (Machine.Choice Call Env) :=
  allocate 1 :: steps 0 8 ++ .start (.remove (client 1) (relay 40000)) :: steps 0 8 ++ allocate 2 :: steps 0 8 ++
    allocate 3 :: steps 0 8 ++ steps 2 3

def inTurn : List (Machine.Choice Call Env) :=
  allocate 1 :: steps 0 8 ++ .start (.remove (client 1) (relay 40000)) :: steps 0 11 ++ allocate 2 :: steps 0 8 ++
    allocate 3 :: steps 0 8

def isDone : Call → Bool
  | .done => true
  | _ => false

theorem eq_done {calls : List Call} (h : calls.all isDone = true) : ∀ call ∈ (calls : Multiset Call), call = .done := by
  intro call hMem
  have hDone := all_eq_true.mp h call (Multiset.mem_coe.mp hMem)
  cases call <;> first | rfl | cases hDone

end LateRemove

/-- The last event for a live allocation's port is the Remove of its previous owner. -/
theorem remove_sent_last : ∃ (w : World) (calls : Multiset Call),
    callMachine.Reaches (fun w _ l => logCallers w l = true) (LateRemove.node.world, 0) (w, calls) ∧
      (∀ call ∈ calls, call = .done) ∧ queued LateRemove.node.world = [] ∧ ¬ LogAgrees w := by
  obtain ⟨w, calls, hReaches, hSeen⟩ := callMachine.exists_reaches_of_exec
    (fun w _ l => logCallers w l = true) (LateRemove.node.world, []) LateRemove.overtaken
    (fun w calls => calls.all LateRemove.isDone ∧
      (w.store.allocations.get (StaleRelay.client 3)).any fun a =>
        decide ((terminals a.relayAddr.port (queued w)).getLast? ≠ some .create)) (by decide +kernel)
  obtain ⟨hDone, hSeen⟩ := hSeen
  refine ⟨w, calls, hReaches, LateRemove.eq_done hDone, rfl, fun hAgrees => ?_⟩
  cases hGet : w.store.allocations.get (StaleRelay.client 3) with
  | none =>
    rw [hGet] at hSeen
    cases hSeen
  | some a =>
    rw [hGet] at hSeen
    exact of_decide_eq_true hSeen ((hAgrees.last a.relayAddr.port).mpr ⟨_, a, hGet, rfl⟩)

theorem log_agrees (setup : Setup) (hQueue : queued setup.world = []) {w : World} {calls : Multiset Call}
    (h : callMachine.Reaches (fun w rest l => logCallers w l = true ∧ sendsFirst w rest l = true) (setup.world, 0)
      (w, calls)) (hIdle : ∀ call ∈ calls, call = .done) : LogAgrees w := by
  have hInv : LogInvariant w calls := by
    refine h.invariant LogInvariant ?_ ?_ (.initial setup hQueue)
    · intro w calls call w' hInv hOk hStart
      obtain ⟨-, rfl⟩ := isEntry_of_start hStart
      exact hInv.start hOk.1
    · intro w rest call env w' call' hInv hOk hNext
      exact hInv.step hNext hOk.1 hOk.2
  exact hInv.agrees hIdle

theorem log_agrees_inTurn : ∃ w : World, w.store.allocations.len = 2 ∧ LogAgrees w := by
  obtain ⟨w, calls, hReaches, hSeen⟩ := callMachine.exists_reaches_of_exec
    (fun w rest l => logCallers w l = true ∧ sendsFirst w rest l = true) (LateRemove.node.world, [])
    LateRemove.inTurn (fun w calls => calls.all LateRemove.isDone ∧ w.store.allocations.len = 2)
    (by decide +kernel)
  exact ⟨w, hSeen.2, log_agrees LateRemove.node rfl hReaches (LateRemove.eq_done hSeen.1)⟩

end Turna.Node
