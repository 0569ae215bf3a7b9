import Turna.Lib.Index
import Turna.Session.Effects

/-! # Allocation ids across restarts

A restored row keeps its id while fresh ids come from a counter that starts at one again. Ids stay
unique exactly as long as no id is installed that a live allocation carries.
-/

namespace Turna.Session
open Lib Net HashMap AllocationStore Allocation Trace StoreOp UInt64

section

section

variable {R : Rules} {s s' : AllocationStore}

/-! ## Counters -/

def AllocationStore.live (s : AllocationStore) (p : UserKey → Bool) : Nat :=
  s.allocations.countP (fun a => p a.userKey)

structure Counted (s : AllocationStore) : Prop where
  global : s.globalCount = s.live (fun _ => true)
  tenant : ∀ tenantId, s.tenantCount tenantId = s.live (fun key => key.2.1 = some tenantId)
  user : ∀ key, s.userCount key = s.live (fun key' => key' = key)

theorem Counted.shift {key : UserKey} {n : Int} (h : Counted s)
    (hLive : ∀ p, (s'.live p : Int) = s.live p + if p key then n else 0)
    (hGlobal : s'.globalCount = s.globalCount + n)
    (hTenant : ∀ t, s'.tenantCount t = s.tenantCount t + if key.2.1 = some t then n else 0)
    (hUser : ∀ k, s'.userCount k = s.userCount k + if k = key then n else 0) : Counted s' where
  global := by rw [hGlobal, hLive, h.global, if_pos rfl]
  tenant t := by rw [hTenant, hLive, h.tenant]; simp
  user k := by rw [hUser, hLive, h.user]; simp [eq_comm]

theorem Counted.keep (h : Counted s) (hLive : ∀ p, s'.live p = s.live p) (hGlobal : s'.globalCount = s.globalCount)
    (hTenant : ∀ t, s'.tenantCount t = s.tenantCount t) (hUser : ∀ k, s'.userCount k = s.userCount k) :
    Counted s' where
  global := by rw [hGlobal, hLive, h.global]
  tenant t := by rw [hTenant, hLive, h.tenant]
  user k := by rw [hUser, hLive, h.user]

variable {c : SocketAddr} {a : Allocation}

theorem live_edit {a' : Allocation} (hGet : s.allocations.get c = some a)
    (hKey : a'.userKey = a.userKey) (p : UserKey → Bool) :
    (s.allocations.insert c a').countP (fun a => p a.userKey) = s.live p := by
  have h := countP_insert_of_some (fun a => p a.userKey) a' hGet
  rw [hKey] at h
  exact Nat.add_right_cancel h

theorem live_insert (hVacant : s.allocations.get c = none) (p : UserKey → Bool) :
    ((s.allocations.insert c a).countP (fun a => p a.userKey) : Int) =
      s.live p + if p a.userKey then 1 else 0 := by
  rw [countP_insert_of_none _ _ hVacant, live]
  cases p a.userKey <;> simp

theorem live_remove (hGet : s.allocations.get c = some a) (p : UserKey → Bool) :
    ((s.allocations.remove c).countP (fun a => p a.userKey) : Int) =
      s.live p + if p a.userKey then -1 else 0 := by
  rw [live, countP_remove_of_some _ hGet]
  cases p a.userKey
  · simp
  · simp only [Bool.toNat_true, if_true]
    omega

theorem live_pos (hGet : s.allocations.get c = some a) {p : UserKey → Bool}
    (hp : p a.userKey = true) : s.live p ≠ 0 := by
  intro hZero
  have hFalse := countP_eq_zero_iff.mp hZero c a hGet
  exact Bool.false_ne_true (hFalse.symm.trans hp)

theorem Counted.teardown {c r : SocketAddr} {a : Allocation} {script : List Stmt} (h : Counted s)
    (hGet : s.allocations.get c = some a) (hTeardown : IsTeardown script a c r) :
    Counted ({ s with allocations := s.allocations.remove c }.runScript script) := by
  have hUser : s.userCounts.contains a.userKey = true := by
    apply contains_of_tally_ne_zero
    have hPos : s.userCount a.userKey ≠ 0 := by
      rw [h.user]
      exact Int.natCast_ne_zero.mpr (live_pos hGet (decide_eq_true rfl))
    exact hPos
  refine @Counted.shift _ _ a.userKey (-1) h (fun p => ?_) ?_ (fun t => ?_) (fun k => ?_)
  · rw [live, runScript_allocations]
    exact live_remove hGet p
  · rw [runScript_globalCount, hTeardown.globals]
    rfl
  · rw [tenantCount, runScript_tenantCounts, hTeardown.tenants]
    cases hTenant : a.tenantId with
    | none =>
      have hKey : a.userKey.2.1 = none := hTenant
      rw [hKey, if_neg (by simp), Int.add_zero]
      rfl
    | some t' =>
      have hKey : a.userKey.2.1 = some t' := hTenant
      have hEntry : s.tenantCounts.contains t' = true := by
        apply contains_of_tally_ne_zero
        have hPos : s.tenantCount t' ≠ 0 := by
          rw [h.tenant]
          exact Int.natCast_ne_zero.mpr (live_pos hGet (decide_eq_true hTenant))
        exact hPos
      simp only [hKey, Option.some.injEq, eq_comm (a := t')]
      exact tally_modify hEntry (-1) t
  · rw [userCount, runScript_userCounts, hTeardown.users]
    exact tally_modify hUser (-1) k

theorem Counted.effect (h : Counted s) (hEffect : Effect R s s') : Counted s' := by
  cases hEffect with
  | quiet hQuiet =>
    refine h.keep (fun p => by rw [live, hQuiet.allocations]; rfl) ?_ (fun t => ?_) (fun k => ?_)
    · rw [hQuiet.global, Int.add_zero]
    · rw [hQuiet.tenant, ite_self, Int.add_zero]
    · rw [hQuiet.user, ite_self, Int.add_zero]
  | prune =>
    refine h.keep (fun _ => rfl) rfl (fun _ => rfl) (fun k => tally_retain_pos ?_)
    have hNonneg : 0 ≤ s.userCount k := by rw [h.user]; exact Int.natCast_nonneg _
    exact hNonneg
  | edit hGet hSame => exact h.keep (live_edit hGet hSame.userKey) rfl (fun _ => rfl) (fun _ => rfl)
  | @bind c a now channel peerAddr hGet =>
    have hSame := sameOwner_bindChannel a now channel peerAddr
    exact h.keep (live_edit hGet hSame.userKey) rfl (fun _ => rfl) (fun _ => rfl)
  | publish hCharge hPools hVacant =>
    refine h.shift (fun p => ?_) hCharge.global hCharge.tenant hCharge.user
    rw [← live_insert hVacant, ← hCharge.allocations]
    rfl
  | teardown hGet hTeardown => exact h.teardown hGet hTeardown
  | @move oldAddr newAddr a order hGet hVacant =>
    refine h.keep (fun p => ?_) rfl (fun _ => rfl) (fun _ => rfl)
    exact countP_move (fun a => p a.userKey) hGet hVacant rfl

/-! ## Keys and indices -/

def ClientKeyed (s : AllocationStore) : Prop := ∀ c a, s.allocations.get c = some a → a.clientAddr = c

theorem Inherited.clientAddr (h : ClientKeyed s) (hLive : Inherited s c a) : a.clientAddr = c := by
  obtain ⟨c₀, a₀, hGet, -, hAddr | ⟨rfl, hAddr⟩⟩ := hLive
  · exact hAddr
  · exact hAddr.trans (h c₀ a₀ hGet)

theorem ClientKeyed.effect (h : ClientKeyed s) (hEffect : Effect R s s') : ClientKeyed s' := by
  intro c a' hGet'
  obtain hLive | ⟨_, _, hAddr⟩ := hEffect.live hGet'
  · exact hLive.clientAddr h
  · exact hAddr

theorem liveIds_effect {ids : String → Prop}
    (hPublish : ∀ s channels a, R.publish s channels a → ids a.allocationId)
    (h : ∀ c a, s.allocations.get c = some a → ids a.allocationId) (hEffect : Effect R s s') :
    ∀ c a, s'.allocations.get c = some a → ids a.allocationId := by
  intro c a' hGet'
  obtain ⟨c₀, a, hGet, hSame, -⟩ | ⟨_, hRule, -⟩ := hEffect.live hGet'
  · exact hSame.allocationId ▸ h c₀ a hGet
  · exact hPublish _ _ _ hRule

theorem relayIndexed_effect (hFresh : ∀ s channels a, R.publish s channels a →
      ∀ c b, s.allocations.get c = some b → b.relayAddr ≠ a.relayAddr)
    (hOwn : ∀ a r, R.teardown a r → r = a.relayAddr)
    (h : IndexedByField s.relayToClient s.allocations relayAddr) (hEffect : Effect R s s') :
    IndexedByField s'.relayToClient s'.allocations relayAddr := by
  cases hEffect with
  | quiet hQuiet => rw [hQuiet.relayToClient, hQuiet.allocations]; exact h
  | prune => exact h
  | edit hGet hSame => exact h.update hGet hSame.relayAddr
  | @bind c a now channel peerAddr hGet => exact h.update hGet (sameOwner_bindChannel a _ _ _).relayAddr
  | publish hCharge hPools hVacant hRule =>
    rw [publish, hCharge.relayToClient, hCharge.allocations]
    exact h.insert hVacant (hFresh _ _ _ hRule)
  | teardown hGet hTeardown hRule =>
    rw [runScript_relayToClient, runScript_allocations, hTeardown.relays, hOwn _ _ hRule]
    exact h.remove hGet
  | move order hGet hVacant => exact h.move hGet hVacant rfl

theorem idIndexed_effect (hFresh : ∀ s channels a, R.publish s channels a →
      ∀ c b, s.allocations.get c = some b → b.allocationId ≠ a.allocationId)
    (h : IndexedByField s.idToClient s.allocations allocationId) (hEffect : Effect R s s') :
    IndexedByField s'.idToClient s'.allocations allocationId := by
  cases hEffect with
  | quiet hQuiet => rw [hQuiet.idToClient, hQuiet.allocations]; exact h
  | prune => exact h
  | edit hGet hSame => exact h.update hGet hSame.allocationId
  | @bind c a now channel peerAddr hGet => exact h.update hGet (sameOwner_bindChannel a _ _ _).allocationId
  | publish hCharge hPools hVacant hRule =>
    rw [publish, hCharge.idToClient, hCharge.allocations]
    exact h.insert hVacant (hFresh _ _ _ hRule)
  | teardown hGet hTeardown hRule =>
    rw [runScript_idToClient, runScript_allocations, hTeardown.ids]
    exact h.remove hGet
  | move order hGet hVacant => exact h.move hGet hVacant rfl

theorem listed_effect (h : ListedBy s.userAllocations s.allocations userKey) (hEffect : Effect R s s') :
    ListedBy s'.userAllocations s'.allocations userKey := by
  cases hEffect with
  | quiet hQuiet => rw [hQuiet.userAllocations, hQuiet.allocations]; exact h
  | prune => exact h.retain
  | edit hGet hSame => exact h.update hGet hSame.userKey
  | @bind c a now channel peerAddr hGet => exact h.update hGet (sameOwner_bindChannel a _ _ _).userKey
  | publish hCharge hPools hVacant hRule =>
    rw [publish, hCharge.userAllocations, hCharge.allocations]
    exact h.push hVacant
  | teardown hGet hTeardown hRule =>
    rw [runScript_userAllocations, runScript_allocations, hTeardown.lists]
    exact h.drop hGet
  | move order hGet hVacant => exact h.move hGet hVacant rfl

end

/-! ## Allocation ids across restarts -/

/-- No two live allocations share an id, and each is found under its own. -/
structure IdsResolve (s : AllocationStore) : Prop where
  unique : ∀ c c' a a', s.allocations.get c = some a → s.allocations.get c' = some a' →
    a.allocationId = a'.allocationId → c = c'
  getById : ∀ c a, s.allocations.get c = some a → s.getById a.allocationId = some a.clientAddr

/-- A create or a rehydrate that succeeds installs an id that no live allocation carries. -/
def StoreOp.InstallsFreshId (s : AllocationStore) : StoreOp → Prop
  | .create clock req => (s.createForIdentity clock req).1 = .ok () →
      ∀ c a, s.allocations.get c = some a → a.allocationId ≠ s.mintId.1
  | .rehydrate order clock row => (s.rehydrate order clock row).1 = .ok true →
      ∀ c a, s.allocations.get c = some a → a.allocationId ≠ (s.restoredId row.allocationId).1
  | _ => True

def freshIdRules : Rules where
  publish s _ a := ∀ c b, s.allocations.get c = some b → b.allocationId ≠ a.allocationId
  edit _ _ := True
  teardown _ _ := True
  pools _ _ := True
  edit_of_channels _ _ _ := trivial
  teardown_own _ := trivial
  pools_same _ _ _ _ := trivial
  pools_sweep _ _ := trivial
  pools_reserve _ _ := trivial

/-- The id index is exact and allocations are stored under their own address. -/
structure IdInvariant (s : AllocationStore) : Prop where
  clientAddr : ClientKeyed s
  id : IndexedByField s.idToClient s.allocations Allocation.allocationId

variable {s : AllocationStore}

theorem IdInvariant.resolve (h : IdInvariant s) : IdsResolve s where
  unique _ _ _ _ hGet hGet' hEq := IndexedBy.unique h.id hGet hGet' hEq rfl
  getById c a hGet := by
    rw [h.clientAddr c a hGet]
    exact IndexedBy.get_of_carries h.id hGet rfl

theorem IdInvariant.apply {op : StoreOp} (h : IdInvariant s) (hFresh : op.InstallsFreshId s) :
    IdInvariant (op.apply s) := by
  have hKeeps : op.Keeps freshIdRules s := by
    cases op with
    | create clock req => exact hFresh
    | rehydrate order clock row =>
      intro hOk _ c b hGet
      rw [prepared_allocations] at hGet
      exact hFresh hOk c b hGet
    | remove => exact fun _ _ => trivial
    | cleanup => exact fun _ _ _ _ => trivial
    | _ => trivial
  have hMinted : IdInvariant (op.minted s) := by
    rw [minted]
    split
    · exact ⟨h.clientAddr, h.id⟩
    · exact h
  refine (apply_effects s op hKeeps).invariant _ (fun s₁ s₂ hEffect hInv => ?_) hMinted
  exact ⟨hInv.clientAddr.effect hEffect, idIndexed_effect (fun _ _ _ hRule => hRule) hInv.id hEffect⟩

end

/-! ## The representation invariant of the store -/

structure RepInvariant (s : AllocationStore) : Prop where
  global : s.globalCount = s.allocations.len
  tenant : ∀ tenantId, s.tenantCount tenantId = s.allocations.countP (fun a => a.tenantId = some tenantId)
  user : ∀ key, s.userCount key = s.allocations.countP (fun a => a.userKey = key)
  clientAddr : ClientKeyed s
  relay : IndexedByField s.relayToClient s.allocations Allocation.relayAddr
  id : IndexedByField s.idToClient s.allocations Allocation.allocationId
  listed : ListedBy s.userAllocations s.allocations Allocation.userKey

theorem RepInvariant.counted {s : AllocationStore} (h : RepInvariant s) : Counted s where
  global := by rw [h.global, len_eq_countP]; rfl
  tenant := h.tenant
  user := h.user

def freshRules (ids : String → Prop) : Rules where
  publish s _ a := ids a.allocationId ∧
    ∀ c b, s.allocations.get c = some b → b.relayAddr.port ≠ a.relayAddr.port ∧ b.allocationId ≠ a.allocationId
  edit _ _ := True
  teardown a r := r = a.relayAddr
  pools _ _ := True
  edit_of_channels _ _ _ := trivial
  teardown_own _ := rfl
  pools_same _ _ _ _ := trivial
  pools_sweep _ _ := trivial
  pools_reserve _ _ := trivial

variable {s : AllocationStore} {n : Nat}

theorem RepInvariant.effect {ids : String → Prop} {s' : AllocationStore} (h : RepInvariant s)
    (hEffect : Effect (freshRules ids) s s') : RepInvariant s' := by
  have hCounted := h.counted.effect hEffect
  refine ⟨?_, hCounted.tenant, hCounted.user, h.clientAddr.effect hEffect, ?_, ?_, listed_effect h.listed hEffect⟩
  · rw [hCounted.global, len_eq_countP]
    rfl
  · refine relayIndexed_effect (fun live channels a hRule c b hGet hEq => ?_) (fun a r hRule => hRule) h.relay hEffect
    exact (hRule.2 c b hGet).1 (congrArg SocketAddr.port hEq)
  · exact idIndexed_effect (fun live channels a hRule c b hGet => (hRule.2 c b hGet).2) h.id hEffect

/-! ## Minted ids -/

def idText (k : Nat) : String := String.ofList (Text.padded 16 16 ((1 + k) % 2 ^ 64))

theorem idText_inj {k k' : Nat} (hk : k < 2 ^ 64) (hk' : k' < 2 ^ 64) (h : idText k = idText k') : k = k' := by
  have hPadded := String.ofList_injective h
  have hMod := Text.padded_inj (by decide) (by decide) (Nat.mod_lt _ (by decide)) (Nat.mod_lt _ (by decide)) hPadded
  omega

def MintedBefore (n : Nat) (id : String) : Prop := ∃ k < n, id = idText k

/-- The counter has been used `n` times, and every live id came from it. -/
structure MintedUpTo (n : Nat) (s : AllocationStore) : Prop where
  nextId : s.nextId.toNat = (1 + n) % 2 ^ 64
  ids : ∀ c a, s.allocations.get c = some a → MintedBefore n a.allocationId

theorem MintedUpTo.mintId_eq (h : MintedUpTo n s) : s.mintId.1 = idText n := by
  rw [mintId, idText, h.nextId]

theorem MintedUpTo.minted_nextId (h : MintedUpTo n s) (op : StoreOp) :
    (op.minted s).nextId.toNat = (1 + (n + (op.mints s).toNat)) % 2 ^ 64 := by
  rw [minted]
  cases op.mints s with
  | false => exact h.nextId
  | true =>
    change (s.nextId + 1).toNat = _
    rw [UInt64.toNat_add, h.nextId, UInt64.toNat_one, Nat.mod_add_mod]
    rfl

theorem mints_create {clock : Clock} {req : CreateRequest}
    (h : (s.createForIdentity clock req).1 = .ok ()) : (StoreOp.create clock req).mints s = true := by
  have hOutcome := create_outcome s clock req
  rw [mints, apply]
  generalize s.createForIdentity clock req = r at h hOutcome
  cases hOutcome with
  | refused | taken => cases h
  | created _ _ hCharge =>
    rw [(sameIndex_emitWrite _ _).nextId]
    rw [publish, hCharge.shift.nextId]
    exact decide_eq_true (fun hEq : s.nextId + 1 = s.nextId => by simp at hEq)

theorem minted_allocations (s : AllocationStore) (op : StoreOp) : (op.minted s).allocations = s.allocations := by
  rw [minted]
  split <;> rfl

theorem RepInvariant.minted (h : RepInvariant s) (op : StoreOp) : RepInvariant (op.minted s) := by
  rw [StoreOp.minted]
  split
  · exact ⟨h.global, h.tenant, h.user, h.clientAddr, h.relay, h.id, h.listed⟩
  · exact h

/-- The relay port of a new allocation is held in the tenant's pool and by no live allocation, and `remove` is given
the own relay address. -/
def StoreOp.Served (s : AllocationStore) : StoreOp → Prop
  | .create _ req => (s.pool req.tenantId).isAllocated req.relayAddr.port = true ∧
      ∀ c a, s.allocations.get c = some a → a.relayAddr.port ≠ req.relayAddr.port
  | .remove _ _ clientAddr relayAddr => ∀ a, s.allocations.get clientAddr = some a → a.relayAddr = relayAddr
  | .rehydrate .. => False
  | _ => True

/-! ## The id counter comes round

A client asks again for the address it already holds; each refusal uses up one id. After `2 ^ 64`
ids the next client gets the id of the first.
-/

namespace IdWrap

def request (clientPort relayPort : UInt16) : CreateRequest where
  clientAddr := .new (.v4 ⟨192, 0, 2, 1⟩) clientPort
  relayAddr := .new (.v4 ⟨198, 51, 100, 1⟩) relayPort
  username := "u"
  key := []
  lifetime := 600
  realm := "r"
  tenantId := none

def create (clientPort relayPort : UInt16) : StoreOp := .create ⟨0, 0⟩ (request clientPort relayPort)

def draw : StoreOp := .pool none (fun pool => pool.allocate.2)

def giveBack (port : UInt16) : StoreOp := .pool none (fun pool => pool.release port)

def twoPorts : AllocationStore := .configured 40000 40001 0 0 []

def bothHeld : PortAllocator := ⟨40000, 40001, 40000, {40001, 40000}, .empty⟩

structure Waiting (n : UInt64) (s : AllocationStore) : Prop where
  nextId : s.nextId = n
  allocations : s.allocations =
    HashMap.empty.insert (request 1 40000).clientAddr ((request 1 40000).allocation ⟨0, 0⟩ (idText 0))
  ports : s.ports = bothHeld
  tenantPools : s.tenantPools = []
  runtime : s.runtime = twoPorts.runtime
  userLimits : s.userLimits = .empty
  writeTx : s.writeTx = none
  user : s.userCount ("r", none, "u") = 1

variable {s : AllocationStore} {n : UInt64}

theorem hasRoom (hRuntime : s.runtime = twoPorts.runtime) (hLimits : s.userLimits = .empty)
    (hUser : s.userCount ("r", none, "u") < 100) : HasRoom s ("r", none, "u") := by
  have hEffective : s.effectiveUserLimits "r" none "u" =
      Session.effectiveUserLimits twoPorts.runtime .empty none "r" none "u" := by
    rw [AllocationStore.effectiveUserLimits, hRuntime, hLimits]
    rfl
  constructor
  · rw [hEffective]
    rfl
  · rw [hEffective]
    exact fun _ => hUser
  · intro tenantId hKey
    cases hKey
  · rw [hRuntime]
    exact fun hPos => absurd hPos (by decide)

theorem emitWrite_detached (h : s.writeTx = none) (op : WriteOp) : s.emitWrite op = s := by
  rw [emitWrite, h]

theorem waiting_start : Trace.Allowed StoreOp.apply StoreOp.Served twoPorts [draw, create 1 40000, draw] ∧
    Waiting 2 (run StoreOp.apply twoPorts [draw, create 1 40000, draw]) := by
  refine ⟨⟨trivial, ⟨by decide, (fun _ _ h => nomatch h)⟩, trivial, trivial⟩, ?_⟩
  obtain ⟨s', hCharge, hEq⟩ := @createForIdentity_vacant (draw.apply twoPorts) (request 1 40000) ⟨0, 0⟩
    (hasRoom rfl rfl (by decide)) rfl
  have hRun : run apply twoPorts [draw, create 1 40000, draw] =
      draw.apply (s'.publish [] ((request 1 40000).allocation ⟨0, 0⟩ (idText 0))) := by
    change draw.apply ((draw.apply twoPorts).createForIdentity ⟨0, 0⟩ (request 1 40000)).2 = _
    rw [hEq, emitWrite_detached (by rw [publish, hCharge.frame]; rfl)]
    rfl
  rw [hRun]
  constructor
  case user => exact hCharge.user ("r", none, "u")
  all_goals
    rw [hCharge.frame]
    rfl

theorem waiting_live (h : Waiting n s) {c : SocketAddr} {a : Allocation}
    (hGet : s.allocations.get c = some a) : a = (request 1 40000).allocation ⟨0, 0⟩ (idText 0) := by
  rw [h.allocations, get_insert] at hGet
  split at hGet
  · exact (Option.some.inj hGet).symm
  · cases hGet

theorem waiting_served (h : Waiting n s) (clientPort : UInt16) : (create clientPort 40001).Served s := by
  refine ⟨?_, fun c a hGet => ?_⟩
  · change s.ports.isAllocated 40001 = true
    rw [h.ports]
    decide
  rw [waiting_live h hGet]
  change (40000 : UInt16) ≠ 40001
  decide

def refused : List StoreOp := [create 1 40001, giveBack 40001, draw]

theorem waiting_refused (h : Waiting n s) : Trace.Allowed StoreOp.apply StoreOp.Served s refused ∧
      Waiting (n + 1) (run StoreOp.apply s refused) := by
  refine ⟨⟨waiting_served h 1, trivial, trivial, trivial⟩, ?_⟩
  have hTaken : s.allocations.get (request 1 40001).clientAddr =
      some ((request 1 40000).allocation ⟨0, 0⟩ (idText 0)) := by
    rw [h.allocations]
    exact get_insert_self ..
  obtain ⟨s', hEq, hSame⟩ := @createForIdentity_taken s (request 1 40001) ⟨0, 0⟩ _
    (hasRoom h.runtime h.userLimits (by rw [h.user]; decide)) hTaken
  have hRun : run apply s refused = draw.apply ((giveBack 40001).apply s') := by
    change draw.apply ((giveBack 40001).apply (s.createForIdentity ⟨0, 0⟩ (request 1 40001)).2) = _
    rw [hEq]
  rw [hRun]
  constructor
  · rw [hSame.frame, ← h.nextId]; rfl
  · rw [hSame.frame, ← h.allocations]; rfl
  · rw [hSame.frame]
    change ((s.ports.release 40001).allocate).2 = bothHeld
    rw [h.ports]
    rfl
  · rw [hSame.frame, ← h.tenantPools]; rfl
  · rw [hSame.frame, ← h.runtime]; rfl
  · rw [hSame.frame, ← h.userLimits]; rfl
  · rw [hSame.frame, ← h.writeTx]; rfl
  · refine (hSame.user ("r", none, "u")).trans ?_
    rw [ite_self, Int.add_zero]
    exact h.user

theorem waiting_refusals (h : Waiting n s) (k : Nat) :
    Trace.Allowed StoreOp.apply StoreOp.Served s (List.replicate k refused).flatten ∧
      Waiting (n + UInt64.ofNat k) (run StoreOp.apply s (List.replicate k refused).flatten) := by
  induction k generalizing n s with
  | zero =>
    rw [show n + UInt64.ofNat 0 = n from UInt64.add_zero n]
    exact ⟨trivial, h⟩
  | succ k ih =>
    obtain ⟨hAllowed, hNext⟩ := waiting_refused h
    obtain ⟨hRest, hLast⟩ := ih hNext
    rw [List.replicate_succ, List.flatten_cons, run_append]
    refine ⟨hAllowed.append hRest, ?_⟩
    have hSum : n + ofNat (k + 1) = n + 1 + ofNat k := by
      rw [Nat.add_comm k 1, UInt64.ofNat_add, ← UInt64.add_assoc]
      rfl
    rw [hSum]
    exact hLast

theorem last_create (hRound : Waiting 1 s) : ¬ RepInvariant ((create 2 40001).apply s) := by
  have hVacant : s.allocations.get (request 2 40001).clientAddr = none := by
    rw [hRound.allocations, get_insert_ne _ _ (by decide)]
    rfl
  obtain ⟨s', hCharge, hEq⟩ := @createForIdentity_vacant s (request 2 40001) ⟨0, 0⟩
    (hasRoom hRound.runtime hRound.userLimits (by rw [hRound.user]; decide)) hVacant
  change ¬ RepInvariant (s.createForIdentity ⟨0, 0⟩ (request 2 40001)).2
  have hId : s.mintId.1 = idText 0 := by
    have hOne : (1 : UInt64).toNat = (1 + 0) % 2 ^ 64 := by decide
    rw [mintId, hRound.nextId, idText, hOne]
  rw [hEq, emitWrite_detached (by rw [publish, hCharge.frame]; exact hRound.writeTx), hId]
  intro hRep
  have hSecond := get_insert_self s'.allocations (request 2 40001).clientAddr
    ((request 2 40001).allocation ⟨0, 0⟩ (idText 0))
  have hFirst : (s'.allocations.insert (request 2 40001).clientAddr
      ((request 2 40001).allocation ⟨0, 0⟩ (idText 0))).get (request 1 40000).clientAddr =
        some ((request 1 40000).allocation ⟨0, 0⟩ (idText 0)) := by
    rw [get_insert_ne _ _ (by decide), hCharge.shift.allocations]
    change s.allocations.get _ = _
    rw [hRound.allocations]
    exact get_insert_self ..
  have hSame := IndexedBy.unique hRep.id hFirst hSecond rfl rfl
  exact absurd hSame (by decide)

theorem come_round {k : Nat} (hk : (2 : UInt64) + UInt64.ofNat k = 1) :
    ∃ ops, Trace.Allowed StoreOp.apply StoreOp.Served twoPorts ops ∧
      ¬ RepInvariant (run StoreOp.apply twoPorts ops) := by
  obtain ⟨hStart, hWaiting⟩ := waiting_start
  obtain ⟨hRefused, hRound⟩ := waiting_refusals hWaiting k
  rw [hk, ← run_append] at hRound
  have hLast : Trace.Allowed apply StoreOp.Served _ [create 2 40001] := ⟨waiting_served hRound 2, trivial⟩
  refine ⟨_, (hStart.append hRefused).append hLast, ?_⟩
  rw [run_append]
  exact last_create hRound

theorem ids_come_round : ∃ ops, Trace.Allowed StoreOp.apply StoreOp.Served twoPorts ops ∧
    ¬ RepInvariant (Trace.run StoreOp.apply twoPorts ops) :=
  come_round (k := 2 ^ 64 - 1) (by decide)

end IdWrap

/-! ## Runs within the first `2 ^ 64` ids -/

theorem RepInvariant.apply {op : StoreOp} (hRep : RepInvariant s)
    (hMinted : MintedUpTo n s) (hServed : op.Served s) (hBound : n + (op.mints s).toNat ≤ 2 ^ 64) :
    RepInvariant (op.apply s) ∧ MintedUpTo (n + (op.mints s).toNat) (op.apply s) := by
  have hKeeps : op.Keeps (freshRules (MintedBefore (n + (op.mints s).toNat))) s := by
    cases op with
    | create clock req =>
      intro hOk
      rw [mints_create hOk, Bool.toNat_true] at hBound ⊢
      refine ⟨⟨n, Nat.lt_succ_self n, hMinted.mintId_eq⟩, fun c b hGet => ⟨hServed.2 c b hGet, fun hEq => ?_⟩⟩
      obtain ⟨k, hk, hId⟩ := hMinted.ids c b hGet
      have hSame : idText k = idText n := hId.symm.trans (hEq.trans hMinted.mintId_eq)
      exact absurd (idText_inj (by omega) (by omega) hSame) (by omega)
    | rehydrate => cases hServed
    | remove order clock c r => exact fun a hGet => (hServed a hGet).symm
    | cleanup => exact fun _ _ _ _ => trivial
    | _ => trivial
  have hEffects := apply_effects s op hKeeps
  have hIds : ∀ c a, (op.minted s).allocations.get c = some a →
      MintedBefore (n + (op.mints s).toNat) a.allocationId := by
    intro c a hGet
    rw [minted_allocations] at hGet
    obtain ⟨k, hk, hId⟩ := hMinted.ids c a hGet
    exact ⟨k, by omega, hId⟩
  refine ⟨hEffects.invariant _ (fun _ _ hEffect h => h.effect hEffect) (hRep.minted op), ⟨?_, ?_⟩⟩
  · rw [← hMinted.minted_nextId op]
    rw [nextId_effects hEffects]
  · exact hEffects.invariant (fun s' => ∀ c a, s'.allocations.get c = some a → MintedBefore _ a.allocationId)
      (fun _ _ hEffect h => liveIds_effect (fun _ _ _ hRule => And.left hRule) h hEffect) hIds

/-- In every state reached by served operations that mint at most `2 ^ 64` ids. -/
theorem rep_invariant (minPort maxPort : UInt16) (random : UInt32) (maxAllocations : Nat)
    (tenants : List TenantRange) {ops : List StoreOp}
    (hRun : Trace.Allowed StoreOp.apply StoreOp.Served
      (.configured minPort maxPort random maxAllocations tenants) ops)
    (hMints : Trace.total StoreOp.apply (fun s op => (op.mints s).toNat)
      (.configured minPort maxPort random maxAllocations tenants) ops ≤ 2 ^ 64) :
    RepInvariant (Trace.run StoreOp.apply (.configured minPort maxPort random maxAllocations tenants) ops) := by
  have hInit : RepInvariant (.configured minPort maxPort random maxAllocations tenants) := by
    rw [configured_eq]
    exact ⟨rfl, fun _ => rfl, fun _ => rfl, (fun _ _ h => nomatch h), IndexedBy.empty, IndexedBy.empty, .empty⟩
  have hStart : MintedUpTo 0 (.configured minPort maxPort random maxAllocations tenants) := by
    rw [configured_eq]
    exact ⟨rfl, (fun _ _ h => nomatch h)⟩
  refine (hRun.invariant_within (fun s op => (op.mints s).toNat) (2 ^ 64)
    (fun n s => RepInvariant s ∧ MintedUpTo n s) (fun n s op h hServed hBound => ?_) ⟨hInit, hStart⟩ ?_).1
  · exact h.1.apply h.2 hServed hBound
  · rw [Nat.zero_add]
    exact hMints

theorem rep_invariant_twoPorts : RepInvariant (Trace.run StoreOp.apply (.configured 40000 40001 0 0 [])
      [IdWrap.draw, IdWrap.create 1 40000, IdWrap.draw]) :=
  rep_invariant 40000 40001 0 0 [] IdWrap.waiting_start.1 (by decide +kernel)

end Turna.Session
