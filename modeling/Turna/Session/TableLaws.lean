import Turna.Session.Identity
import Turna.Session.TableSteps

/-! # Laws of the allocation table

What every run of events keeps: the number of allocations moves with the events, the index by relay
address names the allocation that owns the address, and an allocation that no event touches stays as it
is until it is closed.
-/

namespace Turna.Session
open Lib Net HashMap List Allocation

def AllocationStore.len (s : AllocationStore) : Nat := s.allocations.len

def TableEvent.net : TableEvent → Int
  | .opened _ => 1
  | .closed _ _ _ _ => -1
  | _ => 0

section Steps

variable {e : TableEvent} {s s' : AllocationStore}

theorem SameTables.get (h : SameTables s s') (c : SocketAddr) : s'.get c = s.get c := by
  rw [AllocationStore.get, h.allocations]
  rfl

variable {a a' : Allocation} {es : List TableEvent} {c : SocketAddr}

theorem TableStep.get_opened (h : TableStep (.opened a) s s') : s'.get a.clientAddr = some a := by
  cases h with
  | opened _ _ hSame => exact (hSame.get _).trans (get_insert_self ..)

theorem TableStep.get_moved {oldAddr newAddr : SocketAddr} (h : TableStep (.moved oldAddr newAddr) s s') :
    oldAddr ≠ newAddr ∧ s'.get oldAddr = none := by
  cases h with
  | moved hGet hVacant hSame =>
    have hNe : oldAddr ≠ newAddr := by
      rintro rfl
      rw [hGet] at hVacant
      cases hVacant
    exact ⟨hNe, (hSame.get _).trans ((get_insert_ne _ _ hNe).trans (get_remove_self ..))⟩

theorem TableStep.len (h : TableStep e s s') : (s'.len : Int) = s.len + e.net := by
  simp only [AllocationStore.len, TableEvent.net]
  cases h with
  | quiet h | sink h => simp [h.allocations]
  | edit hGet h | meter hGet h => simp [h.allocations, len_insert_of_some _ hGet]
  | opened hVacant _ h => simp [h.allocations, len_insert_of_none _ hVacant]
  | closed hGet hAllocations =>
    have hCount := len_remove_of_some hGet
    rw [hAllocations]
    dsimp only
    omega
  | @moved _ _ oldAddr newAddr _ hGet hVacant h =>
    have hCount := len_remove_of_some hGet
    have hGone : (s.allocations.remove oldAddr).get newAddr = none := by
      rw [get_remove, show s.allocations.get newAddr = none from hVacant, ite_self]
    rw [h.allocations, len_insert_of_none _ hGone]
    dsimp only
    omega

def net (es : List TableEvent) : Int := (es.map TableEvent.net).sum

@[simp] theorem net_nil : net [] = 0 := rfl

@[simp] theorem net_cons (e : TableEvent) (es : List TableEvent) : net (e :: es) = e.net + net es := rfl

@[simp] theorem net_append (es es' : List TableEvent) : net (es ++ es') = net es + net es' := by
  rw [net, map_append, sum_append, net, net]

theorem net_of_closed (h : ∀ e ∈ es, e.isClosed = true) : net es = -es.length := by
  induction es with
  | nil => rfl
  | cons e es ih =>
    have hFirst : e.net = -1 := by
      have hClosed := h e mem_cons_self
      cases e <;> first | rfl | cases hClosed
    rw [net_cons, hFirst, ih (forall_mem_cons.mp h).2, length_cons]
    omega

theorem net_of_calm (h : ∀ e ∈ es, e.net = 0) : net es = 0 := by
  induction es with
  | nil => rfl
  | cons e es ih =>
    rw [net_cons, h e mem_cons_self, ih (forall_mem_cons.mp h).2]
    rfl

theorem TableRun.len (h : TableRun es s s') : (s'.len : Int) = s.len + net es := by
  induction h with
  | nil => simp [net]
  | cons hStep _ ih =>
    rw [ih, hStep.len, net_cons]
    omega

def IndexSound (s : AllocationStore) : Prop :=
  ∀ r c, s.relayToClient.get r = some c → ∃ a, s.get c = some a ∧ a.relayAddr = r

theorem SameTables.indexSound (hSame : SameTables s s') (h : IndexSound s) : IndexSound s' := by
  intro r c hIndex
  rw [hSame.relayToClient] at hIndex
  rw [hSame.get]
  exact h r c hIndex

theorem Allocation.owner_metered (a : Allocation) (n : Nat) (toClient : Bool) : SameOwner a (a.metered n toClient) := by
  rw [metered]
  split <;> exact ⟨rfl, rfl, rfl, rfl, rfl⟩

theorem IndexSound.step (h : IndexSound s) (hStep : TableStep e s s') : IndexSound s' := by
  have h : SoundBy s.relayToClient s.allocations relayAddr := h
  cases hStep with
  | quiet hSame | sink hSame => exact hSame.indexSound h
  | edit hGet hSame hOwner => exact hSame.indexSound (h.update hGet hOwner.relayAddr)
  | meter hGet hSame => exact hSame.indexSound (h.update hGet (owner_metered ..).relayAddr)
  | opened hVacant _ hSame => exact hSame.indexSound (h.insert hVacant _)
  | closed hGet hAllocations hRelays =>
    intro r c hIndex
    rw [hRelays] at hIndex
    rw [AllocationStore.get, hAllocations]
    exact h.remove hGet r c hIndex
  | moved hGet hVacant hSame => exact hSame.indexSound (h.move hGet hVacant rfl)

def IdSound (s : AllocationStore) : Prop :=
  ∀ id c, s.getById id = some c → ∃ a, s.get c = some a ∧ a.allocationId = id

theorem SameTables.idSound (hSame : SameTables s s') (h : IdSound s) : IdSound s' := by
  intro id c hIndex
  rw [AllocationStore.getById, hSame.idToClient] at hIndex
  rw [hSame.get]
  exact h id c hIndex

theorem IdSound.step (h : IdSound s) (hStep : TableStep e s s') : IdSound s' := by
  have h : SoundBy s.idToClient s.allocations allocationId := h
  cases hStep with
  | quiet hSame | sink hSame => exact hSame.idSound h
  | edit hGet hSame hOwner => exact hSame.idSound (h.update hGet hOwner.allocationId)
  | meter hGet hSame => exact hSame.idSound (h.update hGet (owner_metered ..).allocationId)
  | opened hVacant _ hSame => exact hSame.idSound (h.insert hVacant _)
  | closed hGet hAllocations _ hIds =>
    intro id c hIndex
    rw [AllocationStore.getById, hIds] at hIndex
    rw [AllocationStore.get, hAllocations]
    exact h.remove hGet id c hIndex
  | moved hGet hVacant hSame => exact hSame.idSound (h.move hGet hVacant rfl)

theorem TableStep.live (h : TableStep e s s') (hGet' : s'.get c = some a') :
    Inherited s c a' ∨ e = .opened a' ∧ a'.clientAddr = c := by
  cases h with
  | quiet hSame | sink hSame => exact .inl (.kept ((hSame.get c).symm.trans hGet'))
  | edit hGet hSame hOwner hClient =>
    obtain ⟨rfl, rfl⟩ | hOld := get_insert_cases ((hSame.get c).symm.trans hGet')
    · exact .inl ⟨_, _, hGet, hOwner, hClient.symm.imp_right (⟨rfl, ·⟩)⟩
    · exact .inl (.kept hOld)
  | meter hGet hSame =>
    obtain ⟨rfl, rfl⟩ | hOld := get_insert_cases ((hSame.get c).symm.trans hGet')
    · exact .inl ⟨_, _, hGet, owner_metered .., .inr ⟨rfl, by rw [metered]; split <;> rfl⟩⟩
    · exact .inl (.kept hOld)
  | opened _ _ hSame =>
    obtain ⟨rfl, rfl⟩ | hOld := get_insert_cases ((hSame.get c).symm.trans hGet')
    · exact .inr ⟨rfl, rfl⟩
    · exact .inl (.kept hOld)
  | closed _ hAllocations =>
    rw [AllocationStore.get, hAllocations] at hGet'
    exact .inl (.kept (get_of_get_remove hGet'))
  | moved hGet _ hSame =>
    obtain ⟨rfl, rfl⟩ | hOld := get_insert_cases ((hSame.get c).symm.trans hGet')
    · exact .inl ⟨_, _, hGet, ⟨rfl, rfl, rfl, rfl, rfl⟩, .inl rfl⟩
    · exact .inl (.kept (get_of_get_remove hOld))

theorem ClientKeyed.step (h : ClientKeyed s) (hStep : TableStep e s s') : ClientKeyed s' := by
  intro c a' hGet'
  obtain hLive | ⟨-, hAddr⟩ := hStep.live hGet'
  · exact hLive.clientAddr h
  · exact hAddr

theorem SameOwner.trans {b : Allocation} (h : SameOwner a b) (h' : SameOwner b a') : SameOwner a a' :=
  ⟨h'.relayAddr.trans h.relayAddr, h'.allocationId.trans h.allocationId, h'.realm.trans h.realm,
    h'.tenantId.trans h.tenantId, h'.username.trans h.username⟩

theorem TableRun.origin (h : TableRun es s s') (hGet : s'.get c = some a') :
    (∃ c₀ a, s.get c₀ = some a ∧ SameOwner a a') ∨ ∃ a, .opened a ∈ es ∧ SameOwner a a' := by
  induction h with
  | nil => exact .inl ⟨c, a', hGet, ⟨rfl, rfl, rfl, rfl, rfl⟩⟩
  | cons hStep _ ih =>
    obtain ⟨c₁, a₁, hGet₁, hOwner⟩ | ⟨a, hIn, hOwner⟩ := ih hGet
    · obtain ⟨c₀, a, hGet₀, hOwner₀, -⟩ | ⟨rfl, -⟩ := hStep.live hGet₁
      · exact .inl ⟨c₀, a, hGet₀, hOwner₀.trans hOwner⟩
      · exact .inr ⟨a₁, mem_cons_self, hOwner⟩
    · exact .inr ⟨a, mem_cons_of_mem _ hIn, hOwner⟩

/-! ## The books of a run -/

def Books.record (b : Books) : TableEvent → Books
  | .closed _ a reason epochMs => b.close a reason epochMs
  | .sink tx => { b with usageTx := tx }
  | _ => b

theorem TableStep.books (h : TableStep e s s') : s'.books = s.books.record e := by
  cases h with
  | quiet h | edit _ h | meter _ h | opened _ _ h | moved _ _ h | sink h => exact h.books
  | closed _ _ _ _ hBooks => exact hBooks

theorem TableRun.books (h : TableRun es s s') : s'.books = es.foldl Books.record s.books := by
  induction h with
  | nil => rfl
  | cons hStep _ ih => rw [ih, hStep.books, foldl_cons]

/-! ## Allocations that no event touches -/

def TableEvent.touches (c : SocketAddr) : TableEvent → Bool
  | .edit c' => c' = c
  | .meter c' _ _ => c' = c
  | .moved c' _ => c' = c
  | _ => false

def TableEvent.concerns (c : SocketAddr) : TableEvent → Bool
  | .edit c' => c' = c
  | .meter c' _ _ => c' = c
  | .opened a => a.clientAddr = c
  | .closed c' _ _ _ => c' = c
  | .moved c' c'' => c' = c || c'' = c
  | _ => false

def TableEvent.fills : TableEvent → Bool
  | .opened _ => true
  | .moved _ _ => true
  | _ => false

theorem TableStep.get_other (h : TableStep e s s') (hNot : e.concerns c = false) : s'.get c = s.get c := by
  cases h with
  | quiet hSame | sink hSame => exact hSame.get c
  | edit _ hSame | meter _ hSame | opened _ _ hSame =>
    exact (hSame.get c).trans (get_insert_ne _ _ (Ne.symm (of_decide_eq_false hNot)))
  | closed _ hAllocations =>
    rw [AllocationStore.get, hAllocations]
    exact get_remove_ne _ (Ne.symm (of_decide_eq_false hNot))
  | moved _ _ hSame =>
    obtain ⟨hOld, hNew⟩ := Bool.or_eq_false_iff.mp hNot
    exact (hSame.get c).trans ((get_insert_ne _ _ (Ne.symm (of_decide_eq_false hNew))).trans
      (get_remove_ne _ (Ne.symm (of_decide_eq_false hOld))))

theorem TableRun.get_other (h : TableRun es s s') (hNot : ∀ e ∈ es, e.concerns c = false) : s'.get c = s.get c := by
  induction h with
  | nil => rfl
  | cons hStep _ ih =>
    exact (ih (forall_mem_cons.mp hNot).2).trans (hStep.get_other (hNot _ mem_cons_self))

theorem TableStep.untouched (h : TableStep e s s') (hGet : s.get c = some a)
    (hNot : e.touches c = false) : s'.get c = some a ∨ (e.isClosed = true ∧ s'.get c = none) := by
  cases h with
  | quiet hSame | sink hSame => exact .inl ((hSame.get c).trans hGet)
  | edit _ hSame | meter _ hSame =>
    refine .inl ((hSame.get c).trans ?_)
    exact (get_insert_ne _ _ (Ne.symm (of_decide_eq_false hNot))).trans hGet
  | opened hVacant _ hSame =>
    refine .inl ((hSame.get c).trans ((get_insert_ne _ _ ?_).trans hGet))
    rintro rfl
    rw [hGet] at hVacant
    cases hVacant
  | closed _ hAllocations =>
    rw [AllocationStore.get, hAllocations, get_remove]
    split
    · exact .inr ⟨rfl, rfl⟩
    · exact .inl hGet
  | moved _ hVacant hSame =>
    refine .inl ((hSame.get c).trans ((get_insert_ne _ _ ?_).trans
      ((get_remove_ne _ (Ne.symm (of_decide_eq_false hNot))).trans hGet)))
    rintro rfl
    rw [hGet] at hVacant
    cases hVacant

theorem TableStep.vacant (h : TableStep e s s') (hVacant : s.get c = none)
    (hNot : e.fills = false) : s'.get c = none := by
  cases h with
  | quiet hSame | sink hSame => exact (hSame.get c).trans hVacant
  | edit hGet hSame | meter hGet hSame =>
    refine (hSame.get c).trans ((get_insert_ne _ _ ?_).trans hVacant)
    rintro rfl
    rw [hGet] at hVacant
    cases hVacant
  | opened | moved => cases hNot
  | closed _ hAllocations =>
    rw [AllocationStore.get, hAllocations, get_remove, show s.allocations.get c = none from hVacant, ite_self]

variable {es : List TableEvent}

theorem TableRun.vacant (h : TableRun es s s') (hVacant : s.get c = none)
    (hNot : ∀ e ∈ es, e.fills = false) : s'.get c = none := by
  induction h with
  | nil => exact hVacant
  | cons hStep _ ih =>
    exact ih (hStep.vacant hVacant (hNot _ mem_cons_self)) (forall_mem_cons.mp hNot).2

theorem TableRun.vacant_at (h : TableRun es s s') (hVacant : s.get c = none)
    (hNot : ∀ e ∈ es, e.fills = false ∨ e.concerns c = false) : s'.get c = none := by
  induction h with
  | nil => exact hVacant
  | cons hStep _ ih =>
    refine ih ?_ (forall_mem_cons.mp hNot).2
    obtain hTended | hOther := hNot _ mem_cons_self
    · exact hStep.vacant hVacant hTended
    · exact (hStep.get_other hOther).trans hVacant

inductive Shape : List TableEvent → Prop where
  | tended {es : List TableEvent} (h : ∀ e ∈ es, e.fills = false) : Shape es
  | moved {oldAddr newAddr : SocketAddr} {es : List TableEvent}
      (h : ∀ e ∈ es, e = .edit newAddr ∨ ∃ a reason epochMs, e = .closed newAddr a reason epochMs) :
      Shape (.moved oldAddr newAddr :: es)
  | opened {es : List TableEvent} (h : ∀ e ∈ es, e.isClosed = false) (hStay : ∀ e ∈ es, ∀ c c', e ≠ .moved c c') :
      Shape es

theorem TableRun.untouched_of_open (h : TableRun es s s')
    (hGet : s.get c = some a) (hNot : ∀ e ∈ es, e.touches c = false) (hOpen : ∀ e ∈ es, e.isClosed = false) :
    s'.get c = some a := by
  induction h with
  | nil => exact hGet
  | @cons e es s s' s'' hStep _ ih =>
    obtain hStill | ⟨hClosed, -⟩ := hStep.untouched hGet (hNot _ mem_cons_self)
    · exact ih hStill (forall_mem_cons.mp hNot).2 (forall_mem_cons.mp hOpen).2
    · rw [hOpen e mem_cons_self] at hClosed
      cases hClosed

theorem TableRun.untouched_of_tended (h : TableRun es s s')
    (hGet : s.get c = some a) (hNot : ∀ e ∈ es, e.touches c = false) (hTended : ∀ e ∈ es, e.fills = false) :
    s'.get c = some a ∨ s'.get c = none := by
  induction h with
  | nil => exact .inl hGet
  | cons hStep hRest ih =>
    have hTail := (forall_mem_cons.mp hTended).2
    obtain hStill | ⟨-, hGone⟩ := hStep.untouched hGet (hNot _ mem_cons_self)
    · exact ih hStill (forall_mem_cons.mp hNot).2 hTail
    · exact .inr (hRest.vacant hGone hTail)

theorem TableRun.untouched (h : TableRun es s s') (hShape : Shape es)
    (hGet : s.get c = some a) (hNot : ∀ e ∈ es, e.touches c = false) : s'.get c = some a ∨ s'.get c = none := by
  cases hShape with
  | tended hTended => exact h.untouched_of_tended hGet hNot hTended
  | opened hOpen => exact .inl (h.untouched_of_open hGet hNot hOpen)
  | moved hTail =>
    cases h with
    | cons hStep hRest =>
      obtain hStill | ⟨hClosed, -⟩ := hStep.untouched hGet (hNot _ mem_cons_self)
      · refine hRest.untouched_of_tended hStill (forall_mem_cons.mp hNot).2 (fun e he => ?_)
        obtain rfl | ⟨_, _, _, rfl⟩ := hTail e he <;> rfl
      · cases hClosed

/-! ## Ids and epochs -/

structure SameTicket (a a' : Allocation) : Prop where
  allocationId : a'.allocationId = a.allocationId
  migrationEpoch : a'.migrationEpoch = a.migrationEpoch

theorem SameTicket.refl (a : Allocation) : SameTicket a a := ⟨rfl, rfl⟩

theorem SameTicket.trans {a'' : Allocation} (h : SameTicket a a') (h' : SameTicket a' a'') : SameTicket a a'' :=
  ⟨h'.allocationId.trans h.allocationId, h'.migrationEpoch.trans h.migrationEpoch⟩

theorem TableStep.sameTicket (h : TableStep e s s') (hGet : s.get c = some a)
    (hGet' : s'.get c = some a') : SameTicket a a' := by
  have hSome (hEq : s'.get c = s.get c) : SameTicket a a' := by
    rw [hEq, hGet] at hGet'
    cases hGet'
    exact .refl a
  cases h with
  | quiet hSame | sink hSame => exact hSome (hSame.get c)
  | @edit _ _ c₀ b b' hThere hSame hOwner _ _ hEpoch =>
    by_cases hEq : c = c₀
    · subst hEq
      rw [hGet] at hThere
      cases hThere
      rw [hSame.get, AllocationStore.get, get_insert_self] at hGet'
      cases hGet'
      exact ⟨hOwner.allocationId, hEpoch⟩
    · exact hSome ((hSame.get c).trans (get_insert_ne _ _ hEq))
  | @meter _ _ c₀ b n toClient hThere hSame =>
    by_cases hEq : c = c₀
    · subst hEq
      rw [hGet] at hThere
      cases hThere
      rw [hSame.get, AllocationStore.get, get_insert_self] at hGet'
      cases hGet'
      rw [metered]
      split <;> exact ⟨rfl, rfl⟩
    · exact hSome ((hSame.get c).trans (get_insert_ne _ _ hEq))
  | opened hVacant _ hSame =>
    refine hSome ((hSame.get c).trans (get_insert_ne _ _ ?_))
    rintro rfl
    rw [hGet] at hVacant
    cases hVacant
  | @closed _ _ c₀ _ _ _ _ hAllocations =>
    have hNe : c ≠ c₀ := by
      rintro rfl
      rw [AllocationStore.get, hAllocations, get_remove_self] at hGet'
      cases hGet'
    refine hSome ?_
    rw [AllocationStore.get, hAllocations]
    exact get_remove_ne _ hNe
  | @moved _ _ oldAddr newAddr _ hThere hVacant hSame =>
    have hNew : c ≠ newAddr := by
      rintro rfl
      rw [hGet] at hVacant
      cases hVacant
    have hOld : c ≠ oldAddr := by
      rintro rfl
      rw [(TableStep.moved hThere hVacant hSame).get_moved.2] at hGet'
      cases hGet'
    exact hSome ((hSame.get c).trans ((get_insert_ne _ _ hNew).trans (get_remove_ne _ hOld)))

theorem TableRun.sameTicket_of_tended (h : TableRun es s s')
    (hTended : ∀ e ∈ es, e.fills = false) (hGet : s.get c = some a) (hGet' : s'.get c = some a') : SameTicket a a' := by
  induction h generalizing a with
  | nil =>
    rw [hGet] at hGet'
    cases hGet'
    exact .refl _
  | @cons e es s s₁ s' hStep hRest ih =>
    have hTail := (forall_mem_cons.mp hTended).2
    cases hMiddle : s₁.get c with
    | none =>
      rw [hRest.vacant hMiddle hTail] at hGet'
      cases hGet'
    | some b => exact (hStep.sameTicket hGet hMiddle).trans (ih hTail hMiddle hGet')

theorem TableRun.sameTicket_of_open (h : TableRun es s s')
    (hOpen : ∀ e ∈ es, e.isClosed = false) (hStay : ∀ e ∈ es, ∀ c c', e ≠ .moved c c') (hGet : s.get c = some a)
    (hGet' : s'.get c = some a') : SameTicket a a' := by
  induction h generalizing a with
  | nil =>
    rw [hGet] at hGet'
    cases hGet'
    exact .refl _
  | @cons e es s s₁ s' hStep hRest ih =>
    have hThere : ∃ b, s₁.get c = some b := by
      by_cases hTouch : e.touches c = true
      · cases hStep with
        | edit _ hSame | meter _ hSame =>
          have hEq := of_decide_eq_true hTouch
          subst hEq
          exact ⟨_, (hSame.get _).trans (get_insert_self ..)⟩
        | moved => exact absurd rfl (hStay _ mem_cons_self _ _)
        | _ => cases hTouch
      · obtain hStill | ⟨hClosed, -⟩ := hStep.untouched hGet (Bool.eq_false_iff.mpr hTouch)
        · exact ⟨a, hStill⟩
        · rw [hOpen e mem_cons_self] at hClosed
          cases hClosed
    obtain ⟨b, hMiddle⟩ := hThere
    exact (hStep.sameTicket hGet hMiddle).trans (ih (forall_mem_cons.mp hOpen).2
      (forall_mem_cons.mp hStay).2 hMiddle hGet')

theorem TableRun.sameTicket (h : TableRun es s s') (hShape : Shape es)
    (hGet : s.get c = some a) (hGet' : s'.get c = some a') : SameTicket a a' := by
  cases hShape with
  | tended hTended => exact h.sameTicket_of_tended hTended hGet hGet'
  | opened hOpen hStay => exact h.sameTicket_of_open hOpen hStay hGet hGet'
  | @moved oldAddr newAddr es hTail =>
    have hTended : ∀ e ∈ es, e.fills = false := fun e he => by
      obtain rfl | ⟨_, _, _, rfl⟩ := hTail e he <;> rfl
    cases h with
    | @cons _ _ _ s₁ _ hStep hRest =>
      cases hMiddle : s₁.get c with
      | none =>
        rw [hRest.vacant hMiddle hTended] at hGet'
        cases hGet'
      | some b => exact (hStep.sameTicket hGet hMiddle).trans (hRest.sameTicket_of_tended hTended hMiddle hGet')

theorem TableRun.moved_ticket {oldAddr newAddr : SocketAddr}
    (h : TableRun (.moved oldAddr newAddr :: es) s s') (hTended : ∀ e ∈ es, e.fills = false) (hGet' : s'.get newAddr = some a') : ∃ a, s.get oldAddr = some a ∧
      a'.allocationId = a.allocationId ∧ a'.migrationEpoch = a.migrationEpoch + 1 := by
  cases h with
  | cons hStep hRest =>
    cases hStep with
    | @moved _ _ _ _ a hGet hVacant hSame =>
      have hSame' := hRest.sameTicket_of_tended hTended ((hSame.get _).trans (get_insert_self ..)) hGet'
      exact ⟨a, hGet, hSame'.allocationId, hSame'.migrationEpoch⟩

end Steps

end Turna.Session
