import Turna.Lib.Machine
import Turna.Session.PortAllocator

/-! # Port pool safety under any interleaving

The entry points of the pool as calls that advance one lock region at a time. A port in a call's
local variables is in flight: the call holds it until it returns it, files it or releases it.
-/

namespace Turna.Session
open Lib Multiset PortAllocator

structure PoolEnv where
  now : Nat
  token : Token
  bindOk : Bool

/-- The region it runs next. `tries` counts the turns left of a loop that retries after a failed bind. -/
inductive PoolCall where
  | allocate
  | allocateAndBind (tries : Nat)
  | bind (tries : Nat) (port : UInt16)
  | bindFailed (tries : Nat) (port : UInt16)
  | allocateEvenAndBind (reserveNext : Bool) (tries : Nat)
  | bindEven (reserveNext : Bool) (tries : Nat) (even : UInt16) (token : Option Token)
  | bindEvenFailed (reserveNext : Bool) (tries : Nat) (even : UInt16) (token : Option Token)
  | dropReservation (reserveNext : Bool) (tries : Nat) (token : Token)
  | releasePartner (reserveNext : Bool) (tries : Nat) (port : UInt16)
  | claimAndBind (token : Token)
  | claimReservation (token : Token)
  | bindClaimed (port : UInt16)
  | sweepExpiredReservations
  | cancelReservation (token : Token)
  | reserve (port : UInt16)
  /-- The last region of a failed claim and of a cancellation. -/
  | release (port : UInt16)
  /-- The call returned; the port, if any, is the caller's. -/
  | returned (port : Option UInt16)
  deriving DecidableEq

namespace PoolCall

def owns : PoolCall → Multiset UInt16
  | .bind _ port | .bindFailed _ port | .bindEven _ _ port _ | .bindEvenFailed _ _ port _
  | .releasePartner _ _ port | .bindClaimed port | .release port => {port}
  | .returned (some port) => {port}
  | _ => 0

def entry : PoolCall → Bool
  | .allocate | .claimAndBind _ | .sweepExpiredReservations | .cancelReservation _ | .reserve _ => true
  | .allocateAndBind tries => tries == 64
  | .allocateEvenAndBind _ tries => tries == 64
  | _ => false

def step (env : PoolEnv) (pool : PortAllocator) : PoolCall → PortAllocator × PoolCall
  | .allocate =>
    match pool.allocate with
    | (.ok port, pool) => (pool, .returned (some port))
    | (.error _, pool) => (pool, .returned none)
  | .allocateAndBind 0 => (pool, .returned none)
  | .allocateAndBind (tries + 1) =>
    match pool.allocate with
    | (.ok port, pool) => (pool, .bind tries port)
    | (.error _, pool) => (pool, .returned none)
  | .bind tries port =>
    if env.bindOk then (pool, .returned (some port)) else (pool, .bindFailed tries port)
  | .bindFailed tries port => (pool.release port, .allocateAndBind tries)
  | .allocateEvenAndBind _ 0 => (pool, .returned none)
  | .allocateEvenAndBind true (tries + 1) =>
    match pool.allocateEvenWithReservation env.now env.token with
    | (some (even, token), pool) => (pool, .bindEven true tries even (some token))
    | (none, pool) => (pool, .returned none)
  | .allocateEvenAndBind false (tries + 1) =>
    match pool.allocateEven with
    | (some even, pool) => (pool, .bindEven false tries even none)
    | (none, pool) => (pool, .returned none)
  | .bindEven reserveNext tries even token =>
    if env.bindOk then (pool, .returned (some even))
    else (pool, .bindEvenFailed reserveNext tries even token)
  | .bindEvenFailed reserveNext tries even token =>
    match token with
    | some token => (pool.release even, .dropReservation reserveNext tries token)
    | none => (pool.release even, .allocateEvenAndBind reserveNext tries)
  | .dropReservation reserveNext tries token =>
    match pool.takeReservation token with
    | (some port, pool) => (pool, .releasePartner reserveNext tries port)
    | (none, pool) => (pool, .allocateEvenAndBind reserveNext tries)
  | .releasePartner reserveNext tries port =>
    (pool.release port, .allocateEvenAndBind reserveNext tries)
  -- A claim sweeps in one region and looks its token up in the next.
  | .claimAndBind token => ((pool.sweepExpiredReservations env.now).2, .claimReservation token)
  | .claimReservation token =>
    match pool.takeReservation token with
    | (some port, pool) => (pool, .bindClaimed port)
    | (none, pool) => (pool, .returned none)
  | .bindClaimed port =>
    if env.bindOk then (pool, .returned (some port)) else (pool, .release port)
  | .sweepExpiredReservations => ((pool.sweepExpiredReservations env.now).2, .returned none)
  | .cancelReservation token =>
    match pool.takeReservation token with
    | (some port, pool) => (pool, .release port)
    | (none, pool) => (pool, .returned none)
  | .reserve port =>
    match pool.reserve port with
    | (.ok _, pool) => (pool, .returned (some port))
    | (.error _, pool) => (pool, .returned none)
  | .release port => (pool.release port, .returned none)
  -- Only the caller that holds a port calls `release` on it.
  | .returned (some port) => (pool.release port, .returned none)
  | .returned none => (pool, .returned none)

open PortAllocator in
theorem step_spec {env : PoolEnv} {pool : PortAllocator} (hCursor : pool.CursorInRange)
    (hFresh : pool.reservations.get env.token = none) (call : PoolCall) :
    Transfer pool (call.step env pool).1 call.owns (call.step env pool).2.owns := by
  have hAllocate := allocate_spec hCursor
  cases call with
  | allocate =>
    rw [step]
    split at hAllocate <;> simp only [*] <;> exact hAllocate
  | allocateAndBind tries =>
    cases tries with
    | zero => exact .refl 0
    | succ tries =>
      rw [step]
      split at hAllocate <;> simp only [*] <;> exact hAllocate
  | bind tries port | bindClaimed port =>
    rw [step]
    split <;> exact .refl {port}
  | bindFailed tries port | releasePartner reserveNext tries port | release port => exact release_spec port
  | allocateEvenAndBind reserveNext tries =>
    cases tries with
    | zero => cases reserveNext <;> exact .refl 0
    | succ tries =>
      cases reserveNext with
      | true =>
        have hEven := allocateEvenWithReservation_spec env.now hFresh
        rw [step]
        split at hEven <;> simp only [*] <;> exact hEven
      | false =>
        have hEven := @allocateEven_spec pool
        rw [step]
        split at hEven <;> simp only [*] <;> exact hEven
  | bindEven reserveNext tries even token =>
    rw [step]
    split <;> exact .refl {even}
  | bindEvenFailed reserveNext tries even token =>
    cases token <;> exact release_spec even
  | dropReservation reserveNext tries token | claimReservation token | cancelReservation token =>
    have hTake := @takeReservation_spec pool token
    rw [step]
    split at hTake <;> simp only [*] <;> exact hTake
  | claimAndBind token | sweepExpiredReservations => exact sweepExpiredReservations_spec env.now 0
  | reserve port =>
    have hReserve := @reserve_spec pool port
    rw [step]
    split at hReserve <;> simp only [*] <;> exact hReserve
  | returned port =>
    cases port with
    | none => exact .refl 0
    | some port => exact release_spec port

end PoolCall

def poolMachine : Machine PortAllocator PoolCall PoolEnv where
  start pool call := if call.entry then some pool else none
  advance env pool call := some (call.step env pool)

def FreshToken (pool : PortAllocator) (_ : Multiset PoolCall) : Label PoolCall PoolEnv → Prop
  | .start _ => True
  | .advance _ env => pool.reservations.get env.token = none

instance (pool : PortAllocator) (calls : Multiset PoolCall) (l : Label PoolCall PoolEnv) :
    Decidable (FreshToken pool calls l) := by
  cases l with
  | start => exact instDecidableTrue
  | advance call env => exact inferInstanceAs (Decidable (_ = _))

def heldPorts (calls : Multiset PoolCall) : Multiset UInt16 := (calls.map PoolCall.owns).sum

/-- The pool's books: `used` is the disjoint union of the held and the reserved ports. -/
structure PoolSafe (minPort maxPort : UInt16) (pool : PortAllocator) (calls : Multiset PoolCall) : Prop where
  used : pool.used.val = heldPorts calls + pool.reservedPorts
  inRange : ∀ port ∈ pool.used, minPort ≤ port ∧ port ≤ maxPort
  oneHolder : (heldPorts calls).Nodup
  oneReservation : pool.reservedPorts.Nodup
  heldNotReserved : ∀ port ∈ heldPorts calls, port ∉ pool.reservedPorts
  noLeak : ∀ port ∈ pool.used, port ∈ heldPorts calls ∨ port ∈ pool.reservedPorts

structure PoolInvariant (minPort maxPort : UInt16) (pool : PortAllocator) (calls : Multiset PoolCall) :
    Prop where
  minPort_eq : pool.minPort = minPort
  maxPort_eq : pool.maxPort = maxPort
  cursor : pool.CursorInRange
  inRange : ∀ port ∈ pool.used, pool.contains port = true
  ledger : pool.used.val = heldPorts calls + pool.reservedPorts

variable {minPort maxPort : UInt16}

theorem PoolInvariant.safe {pool : PortAllocator} {calls : Multiset PoolCall}
    (h : PoolInvariant minPort maxPort pool calls) : PoolSafe minPort maxPort pool calls := by
  have hNodup : (heldPorts calls + pool.reservedPorts).Nodup := h.ledger ▸ pool.used.nodup
  obtain ⟨hHeld, hReserved, hDisjoint⟩ := nodup_add.mp hNodup
  refine ⟨h.ledger, fun port hPort => ?_, hHeld, hReserved, fun port => ?_, fun port hPort => ?_⟩
  · have hIn := (pool.contains_iff).mp (h.inRange port hPort)
    rwa [h.minPort_eq, h.maxPort_eq] at hIn
  · exact fun hMem hRes => disjoint_left.mp hDisjoint hMem hRes
  · rw [← Finset.mem_val, h.ledger] at hPort
    exact mem_add.mp hPort

theorem toNat_randomStartPort (h : minPort < maxPort) (random : UInt32) :
    (randomStartPort minPort maxPort random).toNat =
      minPort.toNat + random.toNat % (maxPort.toNat - minPort.toNat + 1) := by
  have hMax := maxPort.toNat_lt
  rw [UInt16.lt_iff_toNat_lt] at h
  have hSpan : ((maxPort - minPort).toUInt32 + 1).toNat = maxPort.toNat - minPort.toNat + 1 := by
    have hSub : (maxPort - minPort).toNat = maxPort.toNat - minPort.toNat :=
      UInt16.toNat_sub_of_le _ _ (UInt16.le_iff_toNat_le.mpr (by omega))
    rw [UInt32.toNat_add, UInt16.toNat_toUInt32, hSub, UInt32.toNat_one, Nat.mod_eq_of_lt (by omega)]
  have hOffset : random.toNat % (maxPort.toNat - minPort.toNat + 1) < maxPort.toNat - minPort.toNat + 1 :=
    Nat.mod_lt _ (by omega)
  rw [randomStartPort, if_neg (by rw [UInt16.le_iff_toNat_le]; omega), UInt16.toNat_add,
    UInt32.toNat_toUInt16, UInt32.toNat_mod, hSpan, Nat.mod_eq_of_lt (by omega), Nat.mod_eq_of_lt (by omega)]

theorem randomStartPort_inRange (h : minPort < maxPort) (random : UInt32) :
    minPort ≤ randomStartPort minPort maxPort random ∧ randomStartPort minPort maxPort random ≤ maxPort := by
  have hOffset : random.toNat % (maxPort.toNat - minPort.toNat + 1) < maxPort.toNat - minPort.toNat + 1 :=
    Nat.mod_lt _ (by omega)
  rw [UInt16.le_iff_toNat_le, UInt16.le_iff_toNat_le, toNat_randomStartPort h]
  rw [UInt16.lt_iff_toNat_lt] at h
  omega

theorem poolInvariant_new (h : minPort < maxPort) (random : UInt32) :
    PoolInvariant minPort maxPort (.new minPort maxPort random) 0 where
  minPort_eq := rfl
  maxPort_eq := rfl
  cursor := (contains_iff _).mpr (randomStartPort_inRange h random)
  inRange _ hPort := by cases hPort
  ledger := rfl

theorem poolInvariant_reaches (hRange : minPort < maxPort) (random : UInt32)
    {pool : PortAllocator} {calls : Multiset PoolCall}
    (h : poolMachine.Reaches FreshToken (.new minPort maxPort random, 0) (pool, calls)) :
    PoolInvariant minPort maxPort pool calls := by
  refine h.invariant (PoolInvariant minPort maxPort) ?_ ?_ (poolInvariant_new hRange random)
  · intro s calls call s' hInv _ hStart
    simp only [poolMachine, Option.ite_none_right_eq_some, Option.some.injEq] at hStart
    obtain ⟨hEntry, rfl⟩ := hStart
    have hOwns : call.owns = 0 := by cases call <;> first | rfl | cases hEntry
    refine { hInv with ledger := ?_ }
    rw [heldPorts, map_cons, sum_cons, hOwns, zero_add]
    exact hInv.ledger
  · intro s rest call env s' call' hInv hFresh hStep
    have hSpec := call.step_spec hInv.cursor hFresh
    have hEq : call.step env s = (s', call') := Option.some.inj hStep
    rw [hEq] at hSpec
    refine ⟨hSpec.minPort.trans hInv.minPort_eq, hSpec.maxPort.trans hInv.maxPort_eq,
      hSpec.cursor hInv.cursor, fun port hPort => ?_, ?_⟩
    · have hIn := hSpec.inRange hInv.inRange port hPort
      rwa [contains_iff, ← hSpec.minPort, ← hSpec.maxPort, ← contains_iff] at hIn
    have hLedger := hInv.ledger
    rw [heldPorts, map_cons, sum_cons] at hLedger ⊢
    exact hSpec.ledger _ hLedger

/-- The used ports are exactly the held and the reserved ones, each once and inside the range. -/
theorem pool_safe {minPort maxPort : UInt16} (hRange : minPort < maxPort) (random : UInt32)
    {pool : PortAllocator} {calls : Multiset PoolCall}
    (h : poolMachine.Reaches FreshToken (.new minPort maxPort random, 0) (pool, calls)) :
    PoolSafe minPort maxPort pool calls :=
  (poolInvariant_reaches hRange random h).safe

/-- Some interleaving of calls on the pool returns the port to its caller. -/
def PortAllocator.HandsOut (pool : PortAllocator) (port : UInt16) : Prop :=
  ∃ (pool' : PortAllocator) (calls : Multiset PoolCall),
    poolMachine.Reaches FreshToken (pool, 0) (pool', calls) ∧ .returned (some port) ∈ calls

theorem PortAllocator.HandsOut.contains {random : UInt32} {port : UInt16}
    (hRange : minPort < maxPort) (h : (new minPort maxPort random).HandsOut port) :
    minPort ≤ port ∧ port ≤ maxPort := by
  obtain ⟨pool', calls, hReaches, hMem⟩ := h
  have hInv := poolInvariant_reaches hRange random hReaches
  have hHeld : port ∈ heldPorts calls := by
    rw [heldPorts, ← cons_erase hMem, map_cons, sum_cons]
    exact mem_add.mpr (.inl (mem_singleton_self port))
  have hUsed : port ∈ pool'.used := by
    rw [← Finset.mem_val, hInv.ledger]
    exact mem_add.mpr (.inl hHeld)
  exact hInv.safe.inRange port hUsed

theorem PortAllocator.exists_handsOut {port : UInt16} (hRange : minPort < maxPort)
    (hMin : minPort ≤ port) (hMax : port ≤ maxPort) :
    ∃ random, (new minPort maxPort random).HandsOut port := by
  have hStart : randomStartPort minPort maxPort (port - minPort).toUInt32 = port := by
    have hSub : (port - minPort).toNat = port.toNat - minPort.toNat := UInt16.toNat_sub_of_le _ _ hMin
    rw [UInt16.le_iff_toNat_le] at hMin hMax
    rw [← UInt16.toNat_inj, toNat_randomStartPort hRange, UInt16.toNat_toUInt32, hSub, Nat.mod_eq_of_lt (by omega)]
    omega
  refine ⟨(port - minPort).toUInt32, ?_⟩
  have hAllocate := @allocate_of_free (.new minPort maxPort (port - minPort).toUInt32) (Finset.notMem_empty _)
  rw [show nextPort _ = port from hStart] at hAllocate
  have hFresh : (new minPort maxPort (port - minPort).toUInt32).reservations.get 0 = none := rfl
  generalize new minPort maxPort (port - minPort).toUInt32 = pool at hAllocate hFresh
  have hReturns : PoolCall.step ⟨0, 0, true⟩ pool .allocate = (pool.allocate.2, .returned (some port)) := by
    rw [PoolCall.step]
    generalize pool.allocate = r at hAllocate
    obtain ⟨result, pool'⟩ := r
    cases hAllocate
    rfl
  have hEnter : poolMachine.Step FreshToken (pool, 0) (pool, .allocate ::ₘ 0) := .start trivial rfl
  have hDraw : poolMachine.Step FreshToken (pool, .allocate ::ₘ 0) (pool.allocate.2, .returned (some port) ::ₘ 0) :=
    @Machine.Step.advance _ _ _ poolMachine FreshToken pool pool.allocate.2 0 .allocate _ ⟨0, 0, true⟩ hFresh
      (congrArg some hReturns)
  exact ⟨_, _, .tail (.single hEnter) hDraw, mem_cons_self ..⟩

def evenAndClaim : List (Machine.Choice PoolCall PoolEnv) :=
  [.start (.allocateEvenAndBind true 64), .advance 0 ⟨0, 7, true⟩, .start (.claimAndBind 7),
    .advance 0 ⟨1, 8, true⟩, .advance 1 ⟨1, 8, false⟩, .advance 0 ⟨1, 8, true⟩, .advance 0 ⟨1, 8, true⟩]

theorem pool_safe_evenAndClaim :
    ∃ pool calls, poolMachine.exec FreshToken (.new 40000 40003 0, []) evenAndClaim = some (pool, calls) ∧
      heldPorts calls = {40000, 40001} ∧ PoolSafe 40000 40003 pool calls := by
  have hHeld : (poolMachine.exec FreshToken (.new 40000 40003 0, []) evenAndClaim).map
      (fun cfg => heldPorts cfg.2) = some {40000, 40001} := by decide +kernel
  obtain ⟨⟨pool, calls⟩, hExec, hPorts⟩ := Option.map_eq_some_iff.mp hHeld
  exact ⟨pool, calls, hExec, hPorts, pool_safe (by decide) 0 (poolMachine.reaches_of_exec _ hExec)⟩

end Turna.Session
