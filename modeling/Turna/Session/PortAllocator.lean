import Mathlib.Algebra.Order.Group.Multiset
import Mathlib.Data.Finset.Basic
import Mathlib.Data.Finset.Card
import Turna.Lib.HashMap
import Turna.Net.Addr

/-! # The relay port allocator

Each definition is one region under the pool's mutexes. An `Instant` is a number of nanoseconds;
a region that reads the clock or the random source takes the reading as an argument.
-/

namespace Turna.Session
open Lib Net HashMap Multiset Finset

inductive SessionError where
  | maxAllocations
  | notFound
  | noPortsAvailable
  | permissionDenied (peer : SocketAddr)
  | channelNotFound (channel : UInt16)
  | bandwidthExceeded (username : String)
  | maxAllocationsPerUser
  | migrationTargetInUse
  | channelConflict
  | allocationExists
  | limitExceeded
  | cacheGenerationOverflow
  deriving DecidableEq, Repr

abbrev Token := UInt64

def secs (n : Nat) : Nat := n * 1000000000

def reservationLifetime : Nat := secs 30

structure Reservation where
  port : UInt16
  expiresAt : Nat
  deriving DecidableEq, Repr

structure PortAllocator where
  minPort : UInt16
  maxPort : UInt16
  nextPort : UInt16
  used : Finset UInt16
  reservations : HashMap Token Reservation

def randomStartPort (minPort maxPort : UInt16) (random : UInt32) : UInt16 :=
  if maxPort ≤ minPort then minPort
  else
    let span := (maxPort - minPort).toUInt32 + 1
    minPort + (random % span).toUInt16

namespace PortAllocator

def new (minPort maxPort : UInt16) (random : UInt32) : PortAllocator where
  minPort := minPort
  maxPort := maxPort
  nextPort := randomStartPort minPort maxPort random
  used := ∅
  reservations := .empty

variable (pool : PortAllocator)

def contains (port : UInt16) : Bool := pool.minPort ≤ port && port ≤ pool.maxPort

def capacity : Nat := pool.maxPort.toNat - pool.minPort.toNat + 1

def isAllocated (port : UInt16) : Bool := port ∈ pool.used

def inUse : Nat := pool.used.card

def advance (next : UInt16) : UInt16 := if pool.maxPort ≤ next then pool.minPort else next + 1

/-- A cursor inside the range is back at its start after as many turns as the range has ports. -/
def search (start : UInt16) : Nat → UInt16 → Option UInt16 × UInt16
  | 0, next => (none, next)
  | turns + 1, next =>
    if next ∉ pool.used then (some next, pool.advance next)
    else if pool.advance next = start then (none, pool.advance next)
    else search start turns (pool.advance next)

def allocate : Except SessionError UInt16 × PortAllocator :=
  match pool.search pool.nextPort pool.capacity pool.nextPort with
  | (some port, next) => (.ok port, { pool with nextPort := next, used := insert port pool.used })
  | (none, next) => (.error .noPortsAvailable, { pool with nextPort := next })

def release (port : UInt16) : PortAllocator := { pool with used := pool.used.erase port }

/-- The scan over even ports from `p` up: stops past the last candidate or at the end of `u16`. -/
def scanEven (inside free : UInt16 → Bool) : Nat → UInt16 → Option UInt16
  | 0, _ => none
  | turns + 1, p =>
    if inside p then
      if free p then some p
      else if p.toNat + 2 < 65536 then scanEven inside free turns (p + 2)
      else none
    else none

def firstEven : UInt16 :=
  if pool.minPort % 2 = 0 then pool.minPort
  else if pool.minPort = 65535 then 65535 else pool.minPort + 1

def allocateEven : Option UInt16 × PortAllocator :=
  match scanEven (· ≤ pool.maxPort) (· ∉ pool.used) 32768 pool.firstEven with
  | some p => (some p, { pool with used := insert p pool.used })
  | none => (none, pool)

def allocateEvenWithReservation (now : Nat) (token : Token) : Option (UInt16 × Token) × PortAllocator :=
  match scanEven (· < pool.maxPort) (fun p => p ∉ pool.used ∧ p + 1 ∉ pool.used) 32768 pool.firstEven with
  | some p =>
    (some (p, token),
      { pool with
        used := insert (p + 1) (insert p pool.used)
        reservations := pool.reservations.insert token ⟨p + 1, now + reservationLifetime⟩ })
  | none => (none, pool)

def sweepExpiredReservations (now : Nat) : Nat × PortAllocator :=
  let expired := pool.reservations.entries.filter (fun e => e.2.expiresAt ≤ now)
  (expired.length,
    { pool with
      used := expired.foldl (fun used e => used.erase e.2.port) pool.used
      reservations := pool.reservations.retain (fun _ r => now < r.expiresAt) })

def takeReservation (token : Token) : Option UInt16 × PortAllocator :=
  ((pool.reservations.get token).map Reservation.port,
    { pool with reservations := pool.reservations.remove token })

def reserve (port : UInt16) : Except SessionError Unit × PortAllocator :=
  if port < pool.minPort ∨ pool.maxPort < port then (.error .noPortsAvailable, pool)
  else if port ∈ pool.used then (.error .noPortsAvailable, pool)
  else (.ok (), { pool with used := insert port pool.used })

def reservedPorts : Multiset UInt16 := (pool.reservations.entries.map (fun e => e.2.port) : List UInt16)

def CursorInRange : Prop := pool.contains pool.nextPort = true

variable {port : UInt16} {used : Finset UInt16}

theorem contains_iff : pool.contains port = true ↔ pool.minPort ≤ port ∧ port ≤ pool.maxPort := by
  simp [contains]

/-- The ports `a` leave a caller's hands and the ports `b` enter them, whatever the others hold. -/
structure Transfer (pool pool' : PortAllocator) (a b : Multiset UInt16) : Prop where
  minPort : pool'.minPort = pool.minPort
  maxPort : pool'.maxPort = pool.maxPort
  cursor : pool.CursorInRange → pool'.CursorInRange
  inRange : (∀ p ∈ pool.used, pool.contains p = true) → ∀ p ∈ pool'.used, pool.contains p = true
  ledger : ∀ rest, pool.used.val = a + rest + pool.reservedPorts →
    pool'.used.val = b + rest + pool'.reservedPorts

variable {pool}

theorem Transfer.refl (a : Multiset UInt16) : Transfer pool pool a a where
  minPort := rfl
  maxPort := rfl
  cursor h := h
  inRange h := h
  ledger _ h := h

theorem advance_contains {next : UInt16} (h : pool.contains next = true) :
    pool.contains (pool.advance next) = true := by
  rw [contains_iff] at h ⊢
  rw [advance]
  split
  · exact ⟨UInt16.le_refl _, UInt16.le_trans h.1 h.2⟩
  next hMax =>
  rw [UInt16.not_le, UInt16.lt_iff_toNat_lt] at hMax
  have hNext : (next + 1).toNat = next.toNat + 1 := by
    have hLt := pool.maxPort.toNat_lt
    rw [UInt16.toNat_add, UInt16.toNat_one, Nat.mod_eq_of_lt (by omega)]
  simp only [UInt16.le_iff_toNat_le, hNext] at h ⊢
  omega

theorem search_spec (start : UInt16) (turns : Nat) {next : UInt16} (hNext : pool.contains next = true) :
    pool.contains (pool.search start turns next).2 = true ∧
      ∀ port, (pool.search start turns next).1 = some port → port ∉ pool.used ∧ pool.contains port = true := by
  induction turns generalizing next with
  | zero => exact ⟨hNext, nofun⟩
  | succ turns ih =>
    rw [search]
    split
    · next hFree =>
      refine ⟨advance_contains hNext, fun port h => ?_⟩
      cases h
      exact ⟨hFree, hNext⟩
    · split
      · exact ⟨advance_contains hNext, nofun⟩
      · exact ih (advance_contains hNext)

variable {ports : List (Token × Reservation)} {rest : Multiset UInt16} {pool' : PortAllocator}

theorem ledger_insert {reserved : Multiset UInt16} (hFree : port ∉ used) (h : used.val = rest + reserved) :
    (insert port used).val = {port} + rest + reserved := by
  rw [insert_val_of_notMem hFree, h, add_assoc, singleton_add]

theorem allocate_spec (hCursor : pool.CursorInRange) : match pool.allocate with
    | (.ok port, pool') => Transfer pool pool' 0 {port}
    | (.error _, pool') => Transfer pool pool' 0 0 := by
  obtain ⟨hNext, hPort⟩ := search_spec pool.nextPort pool.capacity hCursor
  rw [allocate]
  generalize pool.search pool.nextPort pool.capacity pool.nextPort = found at hNext hPort
  obtain ⟨port | port, next⟩ := found
  · exact ⟨rfl, rfl, fun _ => hNext, fun h => h, fun _ h => h⟩
  obtain ⟨hFree, hIn⟩ := hPort port rfl
  refine ⟨rfl, rfl, fun _ => hNext, fun h p hp => ?_, fun rest h => ?_⟩
  · rcases mem_insert.mp hp with rfl | hp
    · exact hIn
    · exact h p hp
  · rw [zero_add] at h
    exact ledger_insert hFree h

theorem allocate_of_free (h : pool.nextPort ∉ pool.used) : pool.allocate.1 = .ok pool.nextPort := by
  rw [allocate, capacity, search, if_pos h]

theorem release_spec (port : UInt16) : Transfer pool (pool.release port) {port} 0 where
  minPort := rfl
  maxPort := rfl
  cursor h := h
  inRange h p hp := h p (Finset.mem_of_mem_erase hp)
  ledger rest h := by
    rw [release, erase_val, h, add_assoc, singleton_add, erase_cons_head, zero_add]
    rfl

theorem reserve_spec (port : UInt16) : match pool.reserve port with
    | (.ok _, pool') => Transfer pool pool' 0 {port}
    | (.error _, pool') => Transfer pool pool' 0 0 := by
  rw [reserve]
  split_ifs with hRange hUsed
  · exact .refl 0
  · exact .refl 0
  · rw [not_or, UInt16.not_lt, UInt16.not_lt] at hRange
    refine ⟨rfl, rfl, fun h => h, fun h p hp => ?_, fun rest h => ?_⟩
    · rcases mem_insert.mp hp with rfl | hp
      · exact (contains_iff _).mpr hRange
      · exact h p hp
    · rw [zero_add] at h
      exact ledger_insert hUsed h

theorem notMem_used_of_reserve {u : Unit} (h : pool.reserve port = (.ok u, pool')) : port ∉ pool.used := by
  rw [reserve] at h
  split_ifs at h with hRange hUsed
  · cases h
  · cases h
  · exact hUsed

theorem le_firstEven : pool.minPort ≤ pool.firstEven := by
  rw [firstEven]
  split_ifs with hEven hTop
  · exact UInt16.le_refl _
  · rw [hTop]
    exact UInt16.le_refl _
  · have hLt := pool.minPort.toNat_lt
    have hNe : pool.minPort.toNat ≠ 65535 := fun h => hTop (UInt16.toNat_inj.mp h)
    rw [UInt16.le_iff_toNat_le, UInt16.toNat_add, UInt16.toNat_one, Nat.mod_eq_of_lt (by omega)]
    omega

theorem scanEven_spec {inside free : UInt16 → Bool} {turns : Nat} {p found : UInt16}
    (h : scanEven inside free turns p = some found) :
    p ≤ found ∧ inside found = true ∧ free found = true := by
  induction turns generalizing p with
  | zero => cases h
  | succ turns ih =>
    rw [scanEven] at h
    split_ifs at h with hInside hFree hTop
    · cases h
      exact ⟨UInt16.le_refl _, hInside, hFree⟩
    obtain ⟨hLe, hFound⟩ := ih h
    refine ⟨UInt16.le_trans ?_ hLe, hFound⟩
    rw [UInt16.le_iff_toNat_le, UInt16.toNat_add]
    change p.toNat ≤ (p.toNat + 2) % 65536
    omega

theorem allocateEven_spec : match pool.allocateEven with
    | (some port, pool') => Transfer pool pool' 0 {port}
    | (none, pool') => Transfer pool pool' 0 0 := by
  rw [allocateEven]
  split
  · next port pool' hScan =>
    split at hScan
    · next p hFound =>
      cases hScan
      obtain ⟨hLe, hInside, hFree⟩ := scanEven_spec hFound
      refine ⟨rfl, rfl, fun h => h, fun h q hq => ?_, fun rest h => ?_⟩
      · rcases mem_insert.mp hq with rfl | hq
        · exact (contains_iff _).mpr ⟨UInt16.le_trans le_firstEven hLe, of_decide_eq_true hInside⟩
        · exact h q hq
      · rw [zero_add] at h
        exact ledger_insert (of_decide_eq_true hFree) h
    · cases hScan
  · next pool' hScan =>
    split at hScan
    · cases hScan
    · cases hScan
      exact .refl 0

theorem reservedPorts_insert {token : Token} {r : Reservation} (hFresh : pool.reservations.get token = none)
    (h : pool'.reservations = pool.reservations.insert token r) :
    pool'.reservedPorts = {r.port} + pool.reservedPorts := by
  rw [reservedPorts, h, entries_insert_of_none _ _ hFresh]
  rfl

theorem allocateEvenWithReservation_spec (now : Nat) {token : Token} (hFresh : pool.reservations.get token = none) :
    match pool.allocateEvenWithReservation now token with
    | (some (port, _), pool') => Transfer pool pool' 0 {port}
    | (none, pool') => Transfer pool pool' 0 0 := by
  rw [allocateEvenWithReservation]
  split
  · next port token' pool' hScan =>
    split at hScan
    · next p hFound =>
      cases hScan
      obtain ⟨hLe, hInside, hFree⟩ := scanEven_spec hFound
      obtain ⟨hEven, hOdd⟩ := of_decide_eq_true hFree
      have hLt : port < pool.maxPort := of_decide_eq_true hInside
      have hNext : (port + 1).toNat = port.toNat + 1 := by
        have hTop := pool.maxPort.toNat_lt
        rw [UInt16.lt_iff_toNat_lt] at hLt
        rw [UInt16.toNat_add, UInt16.toNat_one, Nat.mod_eq_of_lt (by omega)]
      have hLow : pool.minPort ≤ port := UInt16.le_trans le_firstEven hLe
      have hNe : port + 1 ∉ insert port pool.used := by
        rw [mem_insert, not_or]
        refine ⟨fun hEq => ?_, hOdd⟩
        rw [hEq] at hNext
        omega
      refine ⟨rfl, rfl, fun h => h, fun h q hq => ?_, fun rest h => ?_⟩
      · simp only [UInt16.lt_iff_toNat_lt, UInt16.le_iff_toNat_le] at hLt hLow
        rw [mem_insert, mem_insert] at hq
        rcases hq with rfl | rfl | hq
        · simp only [contains_iff, UInt16.le_iff_toNat_le, hNext]
          omega
        · simp only [contains_iff, UInt16.le_iff_toNat_le]
          omega
        · exact h q hq
      · rw [zero_add] at h
        -- The even port goes to the caller, the odd one to the reservation table.
        have hBoth := ledger_insert hNe (ledger_insert hEven h)
        rw [reservedPorts_insert hFresh rfl, ← add_assoc, add_comm _ {port + 1}]
        exact hBoth
    · cases hScan
  · next pool' hScan =>
    split at hScan
    · cases hScan
    · cases hScan
      exact .refl 0

theorem takeReservation_spec (token : Token) : match pool.takeReservation token with
    | (some port, pool') => Transfer pool pool' 0 {port}
    | (none, pool') => Transfer pool pool' 0 0 := by
  rw [takeReservation]
  cases hGet : pool.reservations.get token with
  | none =>
    rw [remove_of_get_none hGet]
    exact .refl 0
  | some r =>
    refine ⟨rfl, rfl, fun h => h, fun h => h, fun rest h => ?_⟩
    have hPorts : pool.reservedPorts =
        r.port ::ₘ reservedPorts { pool with reservations := pool.reservations.remove token } :=
      coe_eq_coe.mpr ((entries_perm_remove hGet).map _)
    refine h.trans ?_
    rw [hPorts, ← singleton_add, zero_add, add_left_comm, add_assoc]

theorem foldl_erase_val (h : used.val = (ports.map (fun e => e.2.port) : List UInt16) + rest) :
    (ports.foldl (fun used e => used.erase e.2.port) used).val = rest := by
  induction ports generalizing used with
  | nil => simpa using h
  | cons e ports ih =>
    apply ih
    rw [erase_val, h, List.map_cons, ← cons_coe, cons_add, erase_cons_head]

theorem mem_foldl_erase {p : UInt16} (h : p ∈ ports.foldl (fun used e => used.erase e.2.port) used) : p ∈ used := by
  induction ports generalizing used with
  | nil => exact h
  | cons e ports ih => exact Finset.mem_of_mem_erase (ih h)

theorem sweepExpiredReservations_spec (now : Nat) (a : Multiset UInt16) :
    Transfer pool (pool.sweepExpiredReservations now).2 a a where
  minPort := rfl
  maxPort := rfl
  cursor h := h
  inRange h p hp := h p (mem_foldl_erase hp)
  ledger rest h := by
    apply foldl_erase_val
    have hSplit := List.filter_append_perm (fun e : Token × Reservation => decide (e.2.expiresAt ≤ now))
      pool.reservations.entries
    have hPorts : pool.reservedPorts =
        ((pool.reservations.entries.filter (fun e => e.2.expiresAt ≤ now)).map (fun e => e.2.port) : List UInt16) +
          (pool.sweepExpiredReservations now).2.reservedPorts := by
      have hKept : (fun e : Token × Reservation => decide (now < e.2.expiresAt)) =
          fun e => !decide (e.2.expiresAt ≤ now) := by
        funext e
        rw [← decide_not]
        exact decide_eq_decide.mpr Nat.not_le.symm
      rw [reservedPorts, reservedPorts, sweepExpiredReservations, entries_retain, hKept, coe_add, ← List.map_append]
      exact coe_eq_coe.mpr (hSplit.symm.map _)
    rw [h, hPorts, add_left_comm]

end PortAllocator

end Turna.Session
