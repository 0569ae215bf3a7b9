import Mathlib.Logic.Relation
import Turna.Session.Outcomes

/-! # What the operations do to the tables

Every operation is a short sequence of effects on the allocation map, its indices and the
counters. An invariant of the tables is shown once for each effect and then holds along every run.
-/

namespace Turna.Session
open Lib Net HashMap List StoreOp AllocationStore

/-- From `s` to `s'` the tables stay and the tallies of `key` move by `g`, `t` and `u`. -/
structure Shift (s s' : AllocationStore) (key : UserKey) (g t u : Int) : Prop where
  allocations : s'.allocations = s.allocations
  relayToClient : s'.relayToClient = s.relayToClient
  channelToClient : s'.channelToClient = s.channelToClient
  idToClient : s'.idToClient = s.idToClient
  nextId : s'.nextId = s.nextId
  userAllocations : s'.userAllocations = s.userAllocations
  global : s'.globalCount = s.globalCount + g
  tenant : ∀ tenantId, s'.tenantCount tenantId = s.tenantCount tenantId + if key.2.1 = some tenantId then t else 0
  user : ∀ key', s'.userCount key' = s.userCount key' + if key' = key then u else 0

theorem Recount.shift {s s' : AllocationStore} {key : UserKey} {g t u : Int} (h : Recount s s' key g t u) :
    Shift s s' key g t u where
  allocations := by rw [h.frame]
  relayToClient := by rw [h.frame]
  channelToClient := by rw [h.frame]
  idToClient := by rw [h.frame]
  nextId := by rw [h.frame]
  userAllocations := by rw [h.frame]
  global := h.global
  tenant := h.tenant
  user := h.user

theorem SameIndex.shift {s s' : AllocationStore} (h : SameIndex s s') (key : UserKey) : Shift s s' key 0 0 0 where
  allocations := h.allocations
  relayToClient := h.relayToClient
  channelToClient := h.channelToClient
  idToClient := h.idToClient
  nextId := h.nextId
  userAllocations := h.userAllocations
  global := by rw [h.globalCount, Int.add_zero]
  tenant tenantId := by rw [ite_self, Int.add_zero, tenantCount, h.tenantCounts]; rfl
  user key' := by rw [ite_self, Int.add_zero, userCount, h.userCounts]; rfl

structure SameOwner (a a' : Allocation) : Prop where
  relayAddr : a'.relayAddr = a.relayAddr
  allocationId : a'.allocationId = a.allocationId
  realm : a'.realm = a.realm
  tenantId : a'.tenantId = a.tenantId
  username : a'.username = a.username

theorem SameOwner.userKey {a a' : Allocation} (h : SameOwner a a') : a'.userKey = a.userKey := by
  rw [Allocation.userKey, h.realm, h.tenantId, h.username]
  rfl

theorem bindChannel_eq (a : Allocation) (now : Nat) (channel : UInt16) (peerAddr : SocketAddr) :
    ∃ bindings reverse, a.bindChannel now channel peerAddr = { a with
      permissions := a.permissions.insert peerAddr.ip (.new now)
      channelBindings := bindings
      channelsReverse := reverse } := by
  rw [Allocation.bindChannel]
  split <;> exact ⟨_, _, rfl⟩

theorem sameOwner_bindChannel (a : Allocation) (now : Nat) (channel : UInt16) (peerAddr : SocketAddr) :
    SameOwner a (a.bindChannel now channel peerAddr) := by
  obtain ⟨_, _, hBind⟩ := bindChannel_eq a now channel peerAddr
  rw [hBind]
  exact ⟨rfl, rfl, rfl, rfl, rfl⟩

/-- What a kind of run promises about its effects, beyond what the code enforces. -/
structure Rules where
  publish : AllocationStore → List UInt16 → Allocation → Prop
  edit : Allocation → Allocation → Prop
  teardown : Allocation → SocketAddr → Prop
  pools : AllocationStore → AllocationStore → Prop
  edit_of_channels : ∀ a a', a'.channelBindings = a.channelBindings → edit a a'
  teardown_own : ∀ a, teardown a a.relayAddr
  pools_same : ∀ s s', s'.allocations = s.allocations → SamePools s s' → pools s s'
  pools_sweep : ∀ s now, pools s (s.sweepReservations now)
  pools_reserve : ∀ s port, pools s (s.updatePool (fun pool => (pool.reserve port).2) (s.poolIdForPort port))

inductive Effect (R : Rules) : AllocationStore → AllocationStore → Prop where
  | quiet {s s' : AllocationStore} {key : UserKey} (h : Shift s s' key 0 0 0) (hRule : R.pools s s') : Effect R s s'
  | prune (s : AllocationStore) : Effect R s s.pruneCounters
  | edit {s : AllocationStore} {c : SocketAddr} {a a' : Allocation} (hGet : s.allocations.get c = some a)
      (hSame : SameOwner a a') (hClient : a'.clientAddr = a.clientAddr ∨ a'.clientAddr = c) (hRule : R.edit a a') :
      Effect R s { s with allocations := s.allocations.insert c a' }
  | bind {s : AllocationStore} {c : SocketAddr} {a : Allocation} (now : Nat) (channel : UInt16)
      (peerAddr : SocketAddr) (hGet : s.allocations.get c = some a) :
      Effect R s { s with
        allocations := s.allocations.insert c (a.bindChannel now channel peerAddr)
        channelToClient := s.channelToClient.insert (a.relayAddr.port, channel) c }
  | publish {s s' : AllocationStore} {channels : List UInt16} {a : Allocation}
      (hCharge : Shift s s' a.userKey 1 1 1) (hPools : SamePools s s')
      (hVacant : s.allocations.get a.clientAddr = none) (hRule : R.publish s channels a) :
      Effect R s (s'.publish channels a)
  | teardown {s : AllocationStore} {c r : SocketAddr} {a : Allocation} {script : List Stmt}
      (hGet : s.allocations.get c = some a) (hTeardown : IsTeardown script a c r) (hRule : R.teardown a r) :
      Effect R s ({ s with allocations := s.allocations.remove c }.runScript script)
  | move {s : AllocationStore} {oldAddr newAddr : SocketAddr} {a : Allocation} (order : IterOrder)
      (hGet : s.allocations.get oldAddr = some a) (hVacant : s.allocations.get newAddr = none) :
      Effect R s ({ s with allocations := s.allocations.remove oldAddr }.relink order oldAddr newAddr a)

def Inherited (s : AllocationStore) (c : SocketAddr) (a' : Allocation) : Prop :=
  ∃ c₀ a, s.allocations.get c₀ = some a ∧ SameOwner a a' ∧
    (a'.clientAddr = c ∨ c₀ = c ∧ a'.clientAddr = a.clientAddr)

theorem Inherited.kept {s : AllocationStore} {c : SocketAddr} {a : Allocation}
    (hGet : s.allocations.get c = some a) : Inherited s c a :=
  ⟨c, a, hGet, ⟨rfl, rfl, rfl, rfl, rfl⟩, .inr ⟨rfl, rfl⟩⟩

theorem Effect.live {R : Rules} {s s' : AllocationStore} {c : SocketAddr} {a' : Allocation}
    (hEffect : Effect R s s') (hGet' : s'.allocations.get c = some a') :
    Inherited s c a' ∨ ∃ channels, R.publish s channels a' ∧ a'.clientAddr = c := by
  cases hEffect with
  | quiet hQuiet => exact .inl (.kept (hQuiet.allocations ▸ hGet'))
  | prune => exact .inl (.kept hGet')
  | @edit c₀ a _ hGet hSame hClient =>
    obtain ⟨rfl, rfl⟩ | hOld := get_insert_cases hGet'
    · exact .inl ⟨c, a, hGet, hSame, hClient.symm.imp_right (⟨rfl, ·⟩)⟩
    · exact .inl (.kept hOld)
  | @bind c₀ a now channel peerAddr hGet =>
    obtain ⟨rfl, rfl⟩ | hOld := get_insert_cases hGet'
    · obtain ⟨_, _, hBind⟩ := bindChannel_eq a now channel peerAddr
      rw [hBind]
      exact .inl ⟨c, a, hGet, ⟨rfl, rfl, rfl, rfl, rfl⟩, .inr ⟨rfl, rfl⟩⟩
    · exact .inl (.kept hOld)
  | publish hCharge hPools hVacant hRule =>
    obtain ⟨rfl, rfl⟩ | hOld := get_insert_cases hGet'
    · exact .inr ⟨_, hRule, rfl⟩
    · exact .inl (.kept (hCharge.allocations ▸ hOld))
  | teardown hGet hTeardown =>
    rw [runScript_allocations] at hGet'
    exact .inl (.kept (get_of_get_remove hGet'))
  | @move oldAddr newAddr a order hGet hVacant =>
    obtain ⟨rfl, rfl⟩ | hOld := get_insert_cases hGet'
    · exact .inl ⟨oldAddr, a, hGet, ⟨rfl, rfl, rfl, rfl, rfl⟩, .inl rfl⟩
    · exact .inl (.kept (get_of_get_remove hOld))

def Effects (R : Rules) : AllocationStore → AllocationStore → Prop := Relation.ReflTransGen (Effect R)

variable {R : Rules} {s s' : AllocationStore}

theorem Effect.recount {key : UserKey} (h : Recount s s' key 0 0 0) : Effect R s s' :=
  .quiet h.shift (R.pools_same s s' h.allocations h.samePools)

theorem Effect.emitWrite (s : AllocationStore) (op : WriteOp) : Effect R s (s.emitWrite op) :=
  .quiet ((sameIndex_emitWrite s op).shift ("", none, ""))
    (R.pools_same _ _ (sameIndex_emitWrite s op).allocations (samePools_emitWrite s op))

theorem Effect.pools (h : SameIndex s s') (hRule : R.pools s s') : Effect R s s' :=
  .quiet (h.shift ("", none, "")) hRule

theorem Effects.invariant (I : AllocationStore → Prop)
    (hStep : ∀ s s', Effect R s s' → I s → I s') (h : Effects R s s') (hInit : I s) :
    I s' := by
  induction h with
  | refl => exact hInit
  | tail _ hEffect ih => exact hStep _ _ hEffect ih

def StoreOp.mints (s : AllocationStore) (op : StoreOp) : Bool := (op.apply s).nextId ≠ s.nextId

def StoreOp.minted (s : AllocationStore) (op : StoreOp) : AllocationStore :=
  if op.mints s then s.mintId.2 else s

/-- The operation, applied to `s`, respects the rules. -/
def StoreOp.Keeps (R : Rules) (s : AllocationStore) : StoreOp → Prop
  | .pool id f => R.pools s (s.updatePool f id)
  | .create clock req =>
    (s.createForIdentity clock req).1 = .ok () → R.publish s.mintId.2 [] (req.allocation clock s.mintId.1)
  | .rehydrate order clock row =>
    (s.rehydrate order clock row).1 = .ok true →
      ((s.poolForPort row.relayAddr.port).reserve row.relayAddr.port).1.isOk = true →
      R.publish (row.prepared s) (order.visit (row.channelMap clock).keys) (row.restored s clock)
  | .remove _ _ clientAddr relayAddr => ∀ a, s.allocations.get clientAddr = some a → R.teardown a relayAddr
  | .cleanup order sweep maxOps =>
    ∀ c ∈ (s.classified order sweep maxOps).toClean, ∀ a, s.allocations.get c = some a →
      R.edit a (a.cleanupExpiredEntries order (sweep.prune c))
  | _ => True

section Operations

variable {R : Rules} (s : AllocationStore)

theorem nextId_effects {s s' : AllocationStore} (h : Effects R s s') : s'.nextId = s.nextId := by
  refine h.invariant (fun s' => s'.nextId = s.nextId) (fun s₁ s₂ hEffect hEq => ?_) rfl
  rw [← hEq]
  cases hEffect with
  | quiet hQuiet => exact hQuiet.nextId
  | publish hCharge => exact hCharge.nextId
  | teardown => exact runScript_nextId ..
  | _ => rfl

theorem effects_minted {op : StoreOp} (h : Effects R s (op.apply s) ∨ Effects R s.mintId.2 (op.apply s)) :
    Effects R (op.minted s) (op.apply s) := by
  obtain h | h := h
  · have hMints : op.mints s = false := by
      rw [mints, nextId_effects h]
      exact decide_eq_false (fun hNe => hNe rfl)
    rw [minted, hMints]
    exact h
  · have hMints : op.mints s = true := by
      rw [mints, nextId_effects h]
      exact decide_eq_true (fun hEq : s.nextId + 1 = s.nextId => by simp at hEq)
    rw [minted, hMints]
    exact h

theorem create_effects (clock : Clock) (req : CreateRequest) (hKeeps : (create clock req).Keeps R s) :
    Effects R s (s.createForIdentity clock req).2 ∨ Effects R s.mintId.2 (s.createForIdentity clock req).2 := by
  have hOutcome := create_outcome s clock req
  rw [StoreOp.Keeps] at hKeeps
  generalize s.createForIdentity clock req = r at hOutcome hKeeps
  cases hOutcome with
  | refused _ hSame => exact .inl (.single (.recount hSame))
  | taken _ _ hSame => exact .inr (.single (.recount hSame))
  | created _ hVacant hCharge =>
    refine .inr (.tail ?_ (.emitWrite _ _))
    exact .single (.publish hCharge.shift hCharge.samePools hVacant (hKeeps rfl))

theorem remove_effects (order : IterOrder) (clock : Clock) (c r : SocketAddr)
    (hRule : ∀ a, s.allocations.get c = some a → R.teardown a r) :
    Effects R s (s.remove order clock c r).2 := by
  rw [AllocationStore.remove]
  split
  · exact .refl
  · next a hGet => exact .single (.teardown hGet (removeScript_isTeardown ..) (hRule a hGet))

theorem forceRemove_effects (order : IterOrder) (clock : Clock) (c : SocketAddr) :
    Effects R s (s.forceRemove order clock c) := by
  rw [AllocationStore.forceRemove]
  split
  · exact .refl
  · next a hGet => exact .single (.teardown hGet (forceRemoveScript_isTeardown ..) (R.teardown_own a))

theorem refresh_effects (order : IterOrder) (clock : Clock) (c : SocketAddr) (lifetime : UInt32) :
    Effects R s (s.refresh order clock c lifetime).2 := by
  rw [AllocationStore.refresh]
  cases hGet : s.allocations.get c with
  | none => exact .refl
  | some a =>
    dsimp only
    by_cases hZero : lifetime = 0
    · rw [if_pos hZero]
      refine remove_effects s order clock c a.relayAddr (fun a' hGet' => ?_)
      rw [hGet] at hGet'
      cases hGet'
      exact R.teardown_own a
    · rw [if_neg hZero]
      refine .tail ?_ (.emitWrite _ _)
      exact .single (.edit hGet ⟨rfl, rfl, rfl, rfl, rfl⟩ (.inl rfl) (R.edit_of_channels _ _ rfl))

theorem setTransport_effects (c : SocketAddr) (transport : TransportProto) :
    Effects R s (s.setTransport c transport).2 := by
  rw [AllocationStore.setTransport]
  split
  · next a hGet => exact .single (.edit hGet ⟨rfl, rfl, rfl, rfl, rfl⟩ (.inl rfl) (R.edit_of_channels _ _ rfl))
  · exact .refl

theorem addPermission_effects (clock : Clock) (c : SocketAddr) (peerIp : IpAddr) :
    Effects R s (s.addPermission clock c peerIp).2 := by
  rw [AllocationStore.addPermission]
  split
  · exact .refl
  next a hGet =>
  split
  · exact .refl
  · refine .tail ?_ (.emitWrite _ _)
    exact .single (.edit hGet ⟨rfl, rfl, rfl, rfl, rfl⟩ (.inl rfl) (R.edit_of_channels _ _ rfl))

theorem addChannel_effects (clock : Clock) (c : SocketAddr) (channel : UInt16) (peerAddr : SocketAddr) :
    Effects R s (s.addChannel clock c channel peerAddr).2 := by
  rw [AllocationStore.addChannel]
  split
  · exact .refl
  next a hGet =>
  split
  · exact .refl
  split
  · exact .refl
  split
  · exact .refl
  · refine .tail (.tail ?_ (.emitWrite _ _)) (.emitWrite _ _)
    exact .single (.bind clock.now channel peerAddr hGet)

theorem reKey_effects (order : IterOrder) (clock : Clock) (oldAddr newAddr : SocketAddr) :
    Effects R s (s.reKey order clock oldAddr newAddr).2 := by
  rw [AllocationStore.reKey]
  split
  · split <;> exact .refl
  next hNe =>
  split
  · exact .refl
  next a hGet =>
  dsimp only
  split
  · next hVacant =>
    rw [get_remove_ne _ (fun h => hNe h.symm)] at hVacant
    exact .tail (.single (.move order hGet hVacant)) (.emitWrite _ _)
  · rw [get_remove_self, insert_remove]
    exact .single (.edit hGet ⟨rfl, rfl, rfl, rfl, rfl⟩ (.inr rfl) (R.edit_of_channels _ _ rfl))

theorem restoredId_minted (allocationId : String) :
    (s.restoredId allocationId).2 = s ∨ (s.restoredId allocationId).2 = s.mintId.2 := by
  rw [restoredId]
  split
  · exact .inr rfl
  · exact .inl rfl

theorem rehydrate_effects (order : IterOrder) (clock : Clock) (row : RehydrateRow)
    (hKeeps : (rehydrate order clock row).Keeps R s) :
    Effects R s (s.rehydrate order clock row).2 ∨ Effects R s.mintId.2 (s.rehydrate order clock row).2 := by
  have hOutcome := rehydrate_outcome s order clock row
  rw [StoreOp.Keeps] at hKeeps
  generalize s.rehydrate order clock row = r at hOutcome hKeeps
  have hStart : Effects R (s.restoredId row.allocationId).2 r.2 → Effects R s r.2 ∨ Effects R s.mintId.2 r.2 := by
    intro h
    obtain hEq | hEq := restoredId_minted s row.allocationId
    · exact .inl (hEq ▸ h)
    · exact .inr (hEq ▸ h)
  cases hOutcome with
  | expired => exact .inl .refl
  | refused hSame => exact .inl (.single (.recount hSame))
  | taken _ hSame => exact hStart (.single (.recount hSame))
  | restored hReserve hVacant hCharge =>
    have hPrepared : row.prepared s = (s.restoredId row.allocationId).2.updatePool
        (fun pool => (pool.reserve row.relayAddr.port).2)
        ((s.restoredId row.allocationId).2.poolIdForPort row.relayAddr.port) := by
      rw [RehydrateRow.prepared, restoredId_updatePool, poolIdForPort,
        poolIdForPort, (restoredId_samePools s _).2]
    have hPool : Effect R (s.restoredId row.allocationId).2 (row.prepared s) := by
      rw [hPrepared]
      exact .pools (sameIndex_updatePool _ _ _) (R.pools_reserve _ _)
    refine hStart (.head hPool (.single (.publish hCharge.shift hCharge.samePools ?_ ?_)))
    · rw [prepared_allocations]
      exact hVacant
    · exact hKeeps rfl (by rw [hReserve]; rfl)

theorem foldl_classify (now : SocketAddr → Nat) (maxOps : Nat) (l : List (SocketAddr × Allocation))
    (acc : AllocationStore.Classified) :
    (∀ e ∈ (l.foldl (AllocationStore.classify now maxOps) acc).expired,
      e ∈ acc.expired ∨ ∃ a, (e.1, a) ∈ l ∧ a.relayAddr = e.2) ∧
      ∃ cs, cs.Sublist (l.map Prod.fst) ∧ (∀ c ∈ cs, ∃ a, (c, a) ∈ l ∧ a.isExpired (now c) = false) ∧
        (l.foldl (AllocationStore.classify now maxOps) acc).toClean = acc.toClean ++ cs := by
  induction l generalizing acc with
  | nil => exact ⟨fun e he => .inl he, [], .slnil, by simp, (append_nil _).symm⟩
  | cons x l ih =>
    obtain ⟨hExpired, cs, hSub, hLive, hClean⟩ := ih (classify now maxOps acc x)
    have hTail (c : SocketAddr) (hc : c ∈ cs) : ∃ a, (c, a) ∈ x :: l ∧ a.isExpired (now c) = false :=
      (hLive c hc).imp fun _ h => ⟨mem_cons_of_mem _ h.1, h.2⟩
    rw [foldl_cons]
    refine ⟨fun e he => ?_, ?_⟩
    · obtain hIn | ⟨a, hMem, hRelay⟩ := hExpired e he
      · rw [classify] at hIn
        split_ifs at hIn
        · exact .inl hIn
        · obtain hIn | hIn := mem_append.mp hIn
          · exact .inl hIn
          · rw [mem_singleton] at hIn
            exact .inr ⟨x.2, hIn ▸ mem_cons_self, hIn ▸ rfl⟩
        all_goals exact .inl hIn
      · exact .inr ⟨a, mem_cons_of_mem _ hMem, hRelay⟩
    · rw [hClean, classify, map_cons]
      split_ifs with _ hLate
      · exact ⟨cs, hSub.cons _, hTail, rfl⟩
      · exact ⟨cs, hSub.cons _, hTail, rfl⟩
      · refine ⟨x.1 :: cs, hSub.cons_cons _, forall_mem_cons.mpr ⟨?_, hTail⟩, by rw [append_assoc]; rfl⟩
        exact ⟨x.2, mem_cons_self, Bool.eq_false_iff.mpr hLate⟩
      · exact ⟨cs, hSub.cons _, hTail, rfl⟩

theorem mem_classified_expired {order : IterOrder} {sweep : SweepClock} {maxOps : Nat} {e : SocketAddr × SocketAddr}
    (h : e ∈ (s.classified order sweep maxOps).expired) :
    ∃ a, s.allocations.get e.1 = some a ∧ a.relayAddr = e.2 := by
  obtain hIn | ⟨a, hMem, hRelay⟩ := (foldl_classify _ _ _ _).1 e h
  · cases hIn
  · exact ⟨a, mem_entries_iff.mp (order.mem_visit.mp hMem), hRelay⟩

theorem nodup_classified_toClean (order : IterOrder) (sweep : SweepClock) (maxOps : Nat) :
    (s.classified order sweep maxOps).toClean.Nodup := by
  obtain ⟨cs, hSub, -, hEq⟩ := (foldl_classify sweep.classify maxOps (order.visit s.allocations.entries) ⟨[], []⟩).2
  rw [classified, hEq, nil_append]
  refine hSub.nodup ?_
  exact ((order.perm s.allocations.entries).map Prod.fst).nodup_iff.mpr s.allocations.nodup_keys

theorem pruneEntries_effects (order : IterOrder) (now : SocketAddr → Nat) {cs : List SocketAddr} (hNodup : cs.Nodup)
    (hRule : ∀ c ∈ cs, ∀ a, s.allocations.get c = some a → R.edit a (a.cleanupExpiredEntries order (now c))) :
    Effects R s (cs.foldl (fun s c => s.pruneEntries order now c) s) ∧
      ∀ c a', (cs.foldl (fun s c => s.pruneEntries order now c) s).allocations.get c = some a' →
        ∃ a, s.allocations.get c = some a ∧ a'.relayAddr = a.relayAddr := by
  induction cs generalizing s with
  | nil => exact ⟨.refl, fun c a' h => ⟨a', h, rfl⟩⟩
  | cons c cs ih =>
    obtain ⟨hNotIn, hNodup⟩ := nodup_cons.mp hNodup
    have hStep : Effects R s (s.pruneEntries order now c) ∧
        (∀ c' ≠ c, (s.pruneEntries order now c).allocations.get c' = s.allocations.get c') ∧
        ∀ c' a', (s.pruneEntries order now c).allocations.get c' = some a' →
          ∃ a, s.allocations.get c' = some a ∧ a'.relayAddr = a.relayAddr := by
      rw [pruneEntries]
      split
      · exact ⟨.refl, fun _ _ => rfl, fun c' a' h => ⟨a', h, rfl⟩⟩
      next a hGet =>
      refine ⟨.single (.edit hGet ⟨rfl, rfl, rfl, rfl, rfl⟩ (.inl rfl) (hRule c mem_cons_self a hGet)),
        fun c' hNe => get_insert_ne _ _ hNe, fun c' a' h => ?_⟩
      rw [get_insert] at h
      split at h
      · next hEq =>
        cases h
        exact ⟨a, hEq ▸ hGet, rfl⟩
      · exact ⟨a', h, rfl⟩
    obtain ⟨hEffects, hFrame, hOwner⟩ := hStep
    obtain ⟨hRest, hOwnerRest⟩ := ih (s.pruneEntries order now c) hNodup (fun c' hIn a hGet => by
      have hNe : c' ≠ c := fun hEq => hNotIn (hEq ▸ hIn)
      rw [hFrame c' hNe] at hGet
      exact hRule c' (mem_cons_of_mem _ hIn) a hGet)
    refine ⟨hEffects.trans hRest, fun c' a' h => ?_⟩
    obtain ⟨a, hGet, hRelay⟩ := hOwnerRest c' a' h
    obtain ⟨a₀, hGet₀, hRelay₀⟩ := hOwner c' a hGet
    exact ⟨a₀, hGet₀, hRelay.trans hRelay₀⟩

theorem removeExpired_effects (order : IterOrder) (sweep : SweepClock) {pairs : List (SocketAddr × SocketAddr)}
    (n : Nat) (hOwn : ∀ e ∈ pairs, ∀ a, s.allocations.get e.1 = some a → a.relayAddr = e.2) :
    Effects R s (pairs.foldl (AllocationStore.removeExpired order sweep) (n, s)).2 := by
  induction pairs generalizing n s with
  | nil => exact .refl
  | cons e pairs ih =>
    have hRest := fun e' hIn => hOwn e' (mem_cons_of_mem e hIn)
    rw [foldl_cons, removeExpired]
    split
    · exact ih s n hRest
    next a hGet =>
    split
    · refine .trans (remove_effects s order (sweep.remove e.1) e.1 e.2 (fun a' hGet' => ?_)) (ih _ (n + 1) ?_)
      · exact hOwn e mem_cons_self a' hGet' ▸ R.teardown_own a'
      intro e' hIn a' hGet'
      rw [AllocationStore.remove, hGet] at hGet'
      simp only [runScript_allocations, get_remove] at hGet'
      split at hGet'
      · cases hGet'
      · exact hRest e' hIn a' hGet'
    · exact ih s n hRest

theorem cleanup_effects (order : IterOrder) (sweep : SweepClock) (maxOps : Nat)
    (hKeeps : (cleanup order sweep maxOps).Keeps R s) :
    Effects R s (s.cleanupExpiredBudget order sweep maxOps).2 := by
  have hSweep : SameIndex s (s.sweepReservations sweep.reservations) := by constructor <;> rfl
  obtain ⟨hPrune, hOwner⟩ := pruneEntries_effects (s.sweepReservations sweep.reservations) order sweep.prune
    (nodup_classified_toClean s order sweep maxOps) hKeeps
  refine .head (.pools hSweep (R.pools_sweep _ _)) (.trans hPrune (.tail (removeExpired_effects _ order sweep 0 ?_) (.prune _)))
  intro e hIn a hGet
  obtain ⟨a₀, hGet₀, hRelay₀⟩ := hOwner e.1 a hGet
  obtain ⟨a₁, hGet₁, hRelay₁⟩ := mem_classified_expired s hIn
  rw [show (s.sweepReservations sweep.reservations).allocations = s.allocations from rfl, hGet₁] at hGet₀
  cases hGet₀
  exact hRelay₀.trans hRelay₁

theorem apply_effects (op : StoreOp) (hKeeps : op.Keeps R s) : Effects R (op.minted s) (op.apply s) := by
  apply effects_minted
  cases op with
  | pool id f => exact .inl (.single (.pools (sameIndex_updatePool s f id) hKeeps))
  | limits runtime userLimits =>
    exact .inl (.single (.pools (by constructor <;> rfl) (R.pools_same _ _ rfl ⟨rfl, rfl⟩)))
  | create clock req => exact create_effects s clock req hKeeps
  | rehydrate order clock row => exact rehydrate_effects s order clock row hKeeps
  | reKey order clock oldAddr newAddr => exact .inl (reKey_effects s order clock oldAddr newAddr)
  | setTransport c transport => exact .inl (setTransport_effects s c transport)
  | addPermission clock c peerIp => exact .inl (addPermission_effects s clock c peerIp)
  | addChannel clock c channel peerAddr => exact .inl (addChannel_effects s clock c channel peerAddr)
  | refresh order clock c lifetime => exact .inl (refresh_effects s order clock c lifetime)
  | remove order clock c r => exact .inl (remove_effects s order clock c r hKeeps)
  | forceRemove order clock c => exact .inl (forceRemove_effects s order clock c)
  | cleanup order sweep maxOps => exact .inl (cleanup_effects s order sweep maxOps hKeeps)

end Operations

end Turna.Session
