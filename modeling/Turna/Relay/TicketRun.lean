import Turna.Relay.Lineage

/-! # Tickets across processes

Tickets outlive the process that issued them, and every process counts its ids from one. Runs of several processes
with one secret are followed here with the identity of each allocation, the tickets issued for it and its moves.
-/

namespace Turna.Relay
open Lib Net Crypto Stun Auth Session Transport Processor List NodeStep MigrationManager Function Option AllocationStore

/-! ## What is recorded -/

structure Issue where
  allocation : Nat
  id : String
  epoch : UInt64
  issuedAt : UInt64
deriving DecidableEq

def Issue.payload (i : Issue) : List Char := MigrationManager.payload i.id i.epoch i.issuedAt

/-- With the epoch before the move and the signed part of the ticket. -/
structure Move where
  allocation : Nat
  id : String
  epoch : UInt64
  signed : Option (List Char)
deriving DecidableEq

inductive TicketEvent where
  | issued (issue : Issue)
  | moved (move : Move)
deriving DecidableEq

namespace TicketEvent

def allocation : TicketEvent → Nat
  | .issued i => i.allocation
  | .moved m => m.allocation

def id : TicketEvent → String
  | .issued i => i.id
  | .moved m => m.id

def Before (epoch : UInt64) : TicketEvent → Prop
  | .issued i => i.epoch ≤ epoch
  | .moved m => m.epoch < epoch

end TicketEvent

/-- `owner` tells which allocation is at an address; `history` has the latest event first. -/
structure Fleet where
  nodes : Nat → Processor
  owner : Nat → SocketAddr → Nat
  created : Nat
  history : List TicketEvent

inductive FleetStep where
  | node (n : Nat) (step : NodeStep) (restored : SocketAddr → Nat)
  | restart (n : Nat) (p : Processor) (hEmpty : p.store.allocations = .empty) (hIds : p.store.idToClient = .empty)

namespace Processor

def presented (p : Processor) (env : Surroundings) (raw : Bytes) : Option (List Char) := do
  let msg ← refreshMessage raw
  let mgr ← p.settings.migration
  let ticket ← msg.getMobilityTicket
  mgr.signedPayload env.authEnv.crypto ticket

end Processor

def NodeStep.target (step : NodeStep) : Option SocketAddr :=
  match step with
  | .migrateQuicAllocation _ _ newAddr => some newAddr
  | step => step.packet?.map fun packet => packet.2.2

namespace Fleet

variable (f : Fleet)

def moveOf (n : Nat) (step : NodeStep) : Option Move := do
  let c ← step.target
  let old ← step.movedFrom (f.nodes n) c
  let a ← (f.nodes n).store.get old
  let signed := step.packet?.bind fun (env, raw, _) => (f.nodes n).presented env raw
  return ⟨f.owner n old, a.allocationId, a.migrationEpoch, signed⟩

def answers (actions : List Action) : Bool := actions.any fun
  | .send _ _ => true
  | _ => false

def newTicket (p p' : Processor) (raw : Bytes) (src : SocketAddr) : Option (String × UInt64) := do
  let msg ← (StunMessage.decode raw).toOption
  let _ ← p.settings.migration
  let a ← p'.store.get src
  if msg.cls = .request ∧ msg.method = .allocate ∧ msg.hasMobilityTicket ∧
      msg.getRequestedTransport = some transportUdp ∧ (p.store.get src).isNone then
    some (a.allocationId, a.migrationEpoch)
  else none

/-- After a move for the allocation at its new epoch, or for a new one. -/
def issueOf (n : Nat) (step : NodeStep) : Option Issue :=
  match step.packet? with
  | none => none
  | some (env, raw, src) =>
    let (actions, p') := step.run (f.nodes n)
    if answers actions then
      match f.moveOf n step with
      | some m =>
        some ⟨m.allocation, m.id, ((p'.store.get src).map Allocation.migrationEpoch).getD (m.epoch + 1), env.unixSecs⟩
      | none => (newTicket (f.nodes n) p' raw src).map fun (id, epoch) => ⟨f.created, id, epoch, env.unixSecs⟩
    else none

def ownerAfter (n : Nat) (step : NodeStep) (restored : SocketAddr → Nat) (c : SocketAddr) : Nat :=
  match step.movedFrom (f.nodes n) c with
  | some old => f.owner n old
  | none =>
    if ((f.nodes n).store.get c).isSome then f.owner n c
    else if step.packet?.isSome then f.created
    else restored c

def apply : FleetStep → Fleet
  | .node n step restored =>
    { nodes := Function.update f.nodes n (step.apply (f.nodes n))
      owner := Function.update f.owner n (f.ownerAfter n step restored)
      created := f.created + 1
      history := (f.issueOf n step).toList.map .issued ++ (f.moveOf n step).toList.map .moved ++ f.history }
  | .restart n p _ _ => { f with nodes := Function.update f.nodes n p }

/-- The events of an allocation are its own, under its id, and not ahead of its epoch. -/
def Own (k : Nat) (a : Allocation) : Prop := ∀ e ∈ f.history, e.allocation = k ∨ e.id = a.allocationId →
  e.allocation = k ∧ e.id = a.allocationId ∧ e.Before a.migrationEpoch

/-- No other address in any table has the allocation or one with its id. -/
def Alone (n : Nat) (c : SocketAddr) (a : Allocation) : Prop := ∀ n' c' a', (f.nodes n').store.get c' = some a' →
  f.owner n' c' = f.owner n c ∨ a'.allocationId = a.allocationId → n' = n ∧ c' = c

/-- An allocation that comes into a table comes with a history of its own and to no other table; epochs do not
overflow; signatures are not forged. -/
structure Proper (n : Nat) (step : NodeStep) (restored : SocketAddr → Nat) : Prop where
  own : ∀ c a, (f.nodes n).store.get c = none → step.movedFrom (f.nodes n) c = none →
    (step.apply (f.nodes n)).store.get c = some a → f.Own (f.ownerAfter n step restored c) a
  alone : ∀ c a, (f.nodes n).store.get c = none → step.movedFrom (f.nodes n) c = none →
    (step.apply (f.nodes n)).store.get c = some a → (f.apply (.node n step restored)).Alone n c a
  epoch : ∀ m, f.moveOf n step = some m → m.epoch.toNat + 1 < 2 ^ 64
  unforged : ∀ env raw src signed, step.packet? = some (env, raw, src) →
    (f.nodes n).presented env raw = some signed → ∃ i, .issued i ∈ f.history ∧ i.payload = signed

def Allows : FleetStep → Prop
  | .node n step restored => f.Proper n step restored
  | .restart _ _ _ _ => True

/-- At the epoch that the allocation still has; the ticket has moved none before, and no move came after it was
issued. -/
structure MovesOwn (m : Move) (signed : List Char) : Prop where
  issued : ∃ i, .issued i ∈ f.history ∧ i.allocation = m.allocation ∧ i.payload = signed ∧ i.epoch = m.epoch
  once : ∀ m', .moved m' ∈ f.history → m'.signed ≠ some signed
  latest : ∀ newer m' older i, f.history = newer ++ .moved m' :: older → .issued i ∈ older →
    i.allocation = m'.allocation → i.payload ≠ signed

def TicketSound : FleetStep → Prop
  | .node n step _ => ∀ m, step.packet?.isSome → f.moveOf n step = some m →
    ∃ signed, m.signed = some signed ∧ f.MovesOwn m signed
  | .restart _ _ _ _ => True

/-! ## The invariant -/

/-- Tickets issued before a move of their allocation have no later epoch than the move. -/
def Ordered : List TicketEvent → Prop
  | [] => True
  | .issued _ :: older => Ordered older
  | .moved m :: older =>
    (∀ i, .issued i ∈ older → i.allocation = m.allocation → i.epoch ≤ m.epoch) ∧ Ordered older

structure Tidy : Prop where
  idSound : ∀ n, IdSound (f.nodes n).store
  own : ∀ n c a, (f.nodes n).store.get c = some a → f.Own (f.owner n c) a
  alone : ∀ n c a, (f.nodes n).store.get c = some a → f.Alone n c a
  ordered : Ordered f.history
  traced : ∀ m signed, .moved m ∈ f.history → m.signed = some signed →
    ∃ i, .issued i ∈ f.history ∧ i.payload = signed ∧ i.id = m.id ∧ i.epoch = m.epoch

end Fleet

variable {epoch : UInt64} {f : Fleet}

theorem payload_inj {id id' : String} {epoch' issued issued' : UInt64}
    (h : payload id epoch issued = payload id' epoch' issued') :
    id = id' ∧ epoch = epoch' := by
  have hRead := congrArg readPayload h
  rw [readPayload_payload, readPayload_payload] at hRead
  simp only [some.injEq, Prod.mk.injEq] at hRead
  exact ⟨String.toList_inj.mp hRead.1, UInt64.toNat_inj.mp hRead.2.1⟩

theorem Fleet.Ordered.at_move {newer older : List TicketEvent} {m : Move}
    (h : Ordered (newer ++ .moved m :: older)) {i : Issue} (hIn : .issued i ∈ older)
    (hSame : i.allocation = m.allocation) : i.epoch ≤ m.epoch := by
  induction newer with
  | nil => exact h.1 i hIn hSame
  | cons e newer ih =>
    cases e with
    | issued _ => exact ih h
    | moved _ => exact ih h.2

theorem lt_succ_epoch (h : epoch.toNat + 1 < 2 ^ 64) : epoch < epoch + 1 := by
  rw [UInt64.lt_iff_toNat_lt, UInt64.toNat_add]
  simp only [UInt64.reduceToNat]
  omega

theorem TicketEvent.Before.mono {e : TicketEvent} {epoch' : UInt64} (h : e.Before epoch) (hLe : epoch ≤ epoch') :
    e.Before epoch' := by
  cases e with
  | issued i => exact UInt64.le_trans h hLe
  | moved m => exact UInt64.lt_of_lt_of_le h hLe

section Invariant

variable {f : Fleet} {n : Nat} {step : NodeStep} {restored : SocketAddr → Nat}

theorem Fleet.nodes_self : (f.apply (.node n step restored)).nodes n = step.apply (f.nodes n) := update_self ..

variable {n' : Nat} {env : Surroundings} {raw : Bytes} {src c old c' : SocketAddr} {m : Move} {a a' : Allocation}

theorem Fleet.nodes_other (h : n' ≠ n) : (f.apply (.node n step restored)).nodes n' = f.nodes n' :=
  update_of_ne h ..

theorem Fleet.owner_self : (f.apply (.node n step restored)).owner n = f.ownerAfter n step restored :=
  update_self ..

theorem Fleet.owner_other (h : n' ≠ n) : (f.apply (.node n step restored)).owner n' = f.owner n' :=
  update_of_ne h ..

theorem NodeStep.target_packet (h : step.packet? = some (env, raw, src)) : step.target = some src := by
  cases step <;> cases h <;> rfl

theorem NodeStep.target_of_movedFrom {p : Processor} (h : step.movedFrom p c = some old) :
    step.target = some c := by
  cases hPacket : step.packet? with
  | some packet =>
    obtain ⟨env, raw, src⟩ := packet
    rw [movedFrom_packet hPacket] at h
    split at h
    · next hSrc => rw [target_packet hPacket, hSrc.1]
    · cases h
  | none =>
    cases step with
    | migrateQuicAllocation env oldAddr newAddr =>
      rw [movedFrom] at h
      split at h
      · next hMoves => rw [target, hMoves.1]
      · cases h
    | _ => first | cases h | cases hPacket

theorem Fleet.moveOf_spec (h : f.moveOf n step = some m) : ∃ c old a, step.target = some c ∧
    step.movedFrom (f.nodes n) c = some old ∧ (f.nodes n).store.get old = some a ∧ m.allocation = f.owner n old ∧
      m.id = a.allocationId ∧ m.epoch = a.migrationEpoch ∧
      m.signed = step.packet?.bind fun (env, raw, _) => (f.nodes n).presented env raw := by
  rw [moveOf] at h
  obtain ⟨c, hTarget, h⟩ := bind_eq_some_iff.mp h
  obtain ⟨old, hFrom, h⟩ := bind_eq_some_iff.mp h
  obtain ⟨a, hGet, h⟩ := bind_eq_some_iff.mp h
  cases h
  exact ⟨c, old, a, hTarget, hFrom, hGet, rfl, rfl, rfl, rfl⟩

theorem Fleet.moveOf_none (hTarget : step.target = some c) :
    f.moveOf n step = none ↔ step.movedFrom (f.nodes n) c = none := by
  rw [moveOf, hTarget]
  simp only [bind_eq_bind, bind_some]
  cases hFrom : step.movedFrom (f.nodes n) c with
  | none => simp
  | some old =>
    obtain ⟨-, ⟨a, hGet⟩, -⟩ := movedFrom_spec hFrom
    simp [hGet]

theorem Fleet.moveOf_some (hFrom : step.movedFrom (f.nodes n) c = some old)
    (hGet : (f.nodes n).store.get old = some a) : ∃ m, f.moveOf n step = some m ∧ m.epoch = a.migrationEpoch := by
  cases hMove : f.moveOf n step with
  | none =>
    rw [(moveOf_none (target_of_movedFrom hFrom)).mp hMove] at hFrom
    cases hFrom
  | some m =>
    obtain ⟨c', old', a', hTarget, hFrom', hGet', -, -, hEpoch, -⟩ := moveOf_spec hMove
    rw [target_of_movedFrom hFrom] at hTarget
    cases hTarget
    rw [hFrom] at hFrom'
    cases hFrom'
    rw [hGet] at hGet'
    cases hGet'
    exact ⟨m, rfl, hEpoch⟩

theorem Fleet.Tidy.ticket_names (h : f.Tidy)
    (hPacket : step.packet? = some (env, raw, src)) (hFrom : step.movedFrom (f.nodes n) src = some old)
    (hGet : (f.nodes n).store.get old = some a) : ∃ signed, (f.nodes n).presented env raw = some signed ∧
      ∀ i : Issue, i.payload = signed → i.id = a.allocationId ∧ i.epoch = a.migrationEpoch := by
  rw [movedFrom_packet hPacket] at hFrom
  split at hFrom
  · next hSrc =>
    have hVacant := isNone_iff_eq_none.mp hSrc.2
    obtain ⟨hMoves, -⟩ := filter_eq_some_iff.mp hFrom
    obtain ⟨msg, hMessage, hTarget⟩ := bind_eq_some_iff.mp hMoves
    rw [refreshTarget, hVacant] at hTarget
    dsimp only at hTarget
    split at hTarget
    · next mgr ticket hManager hTicket =>
      split at hTarget
      · cases hTarget
      obtain ⟨⟨oldAddr, allocId, epoch⟩, hSome, rfl⟩ := map_eq_some_iff.mp hTarget
      obtain ⟨hVerified, hId, b, hThere, hEpoch⟩ := ticketTarget_spec hSome
      obtain ⟨signed, hSigned, hNames⟩ := mgr.verifyTicket_spec _ hVerified
      refine ⟨signed, ?_, fun i hPayload => ?_⟩
      · rw [Processor.presented, hMessage, hManager]
        simp only [bind_eq_bind, bind_some, hTicket]
        exact hSigned
      obtain ⟨hSameId, hSameEpoch⟩ := hNames i.id i.epoch i.issuedAt hPayload.symm
      obtain ⟨b', hIndexed, hOwn⟩ := h.idSound n allocId oldAddr hId
      rw [hGet] at hThere hIndexed
      cases hThere
      cases hIndexed
      exact ⟨hSameId.trans hOwn.symm, hSameEpoch.trans hEpoch.symm⟩
    · cases hTarget
  · cases hFrom

inductive Origin (f : Fleet) (n : Nat) (step : NodeStep) (restored : SocketAddr → Nat) (n' : Nat) (c' : SocketAddr)
    (a' : Allocation) : Prop where
  | stayed {a : Allocation} (hGet : (f.nodes n').store.get c' = some a) (hSame : SameTicket a a')
      (hOwner : (f.apply (.node n step restored)).owner n' c' = f.owner n' c')
      (hStill : n' = n → ∃ b, (step.apply (f.nodes n)).store.get c' = some b)
  | moved {old : SocketAddr} {a : Allocation} (hNode : n' = n) (hFrom : step.movedFrom (f.nodes n) c' = some old)
      (hGet : (f.nodes n).store.get old = some a) (hId : a'.allocationId = a.allocationId)
      (hEpoch : a'.migrationEpoch = a.migrationEpoch + 1)
      (hOwner : (f.apply (.node n step restored)).owner n c' = f.owner n old)
  | entered (hNode : n' = n) (hVacant : (f.nodes n).store.get c' = none)
      (hFrom : step.movedFrom (f.nodes n) c' = none) (hGet : (step.apply (f.nodes n)).store.get c' = some a')

theorem origin
    (h : ((f.apply (.node n step restored)).nodes n').store.get c' = some a') : Origin f n step restored n' c' a' := by
  by_cases hNode : n' = n
  · subst hNode
    rw [Fleet.nodes_self] at h
    cases step.lineage (f.nodes n') h with
    | @moved old a hFrom hGet hId hEpoch _ =>
      refine .moved rfl hFrom hGet hId hEpoch ?_
      rw [Fleet.owner_self, Fleet.ownerAfter, hFrom]
    | @stayed a hFrom hGet hSame =>
      refine .stayed hGet hSame ?_ (fun _ => ⟨a', h⟩)
      rw [Fleet.owner_self, Fleet.ownerAfter, hFrom, hGet]
      rfl
    | entered hFrom hVacant => exact .entered rfl hVacant hFrom h
  · rw [Fleet.nodes_other hNode] at h
    refine .stayed h (.refl a') ?_ (fun hEq => absurd hEq hNode)
    rw [Fleet.owner_other hNode]

theorem Fleet.Tidy.alone_step (h : f.Tidy) (hProper : f.Proper n step restored) {n₁ : Nat} {c₁ : SocketAddr}
    {a₁ : Allocation} (h₁ : ((f.apply (.node n step restored)).nodes n₁).store.get c₁ = some a₁) :
    (f.apply (.node n step restored)).Alone n₁ c₁ a₁ := by
  have hApart : ∀ {m₁ m₂ d₁ d₂ b₁ b₂}, (f.nodes m₁).store.get d₁ = some b₁ → (f.nodes m₂).store.get d₂ = some b₂ →
      f.owner m₂ d₂ = f.owner m₁ d₁ ∨ b₂.allocationId = b₁.allocationId → m₂ = m₁ ∧ d₂ = d₁ :=
    fun hGet₁ hGet₂ => h.alone _ _ _ hGet₁ _ _ _ hGet₂
  intro n₂ c₂ a₂ h₂ hShared
  cases origin h₁ with
  | entered hNode hVacant hFrom hGet =>
    subst hNode
    exact hProper.alone c₁ a₁ hVacant hFrom hGet n₂ c₂ a₂ h₂ hShared
  | stayed hGet₁ hSame₁ hOwner₁ hStill₁ =>
    cases origin h₂ with
    | entered hNode hVacant hFrom hGet =>
      subst hNode
      obtain ⟨rfl, rfl⟩ := hProper.alone c₂ a₂ hVacant hFrom hGet n₁ c₁ a₁ h₁ (hShared.imp Eq.symm Eq.symm)
      exact ⟨rfl, rfl⟩
    | stayed hGet₂ hSame₂ hOwner₂ _ =>
      rw [hOwner₁, hOwner₂, hSame₁.allocationId, hSame₂.allocationId] at hShared
      exact hApart hGet₁ hGet₂ hShared
    | moved hNode hFrom hGet₂ hId _ hOwner₂ =>
      -- the allocation that stayed cannot be the one that was taken away
      subst hNode
      rw [hOwner₁, hOwner₂, hSame₁.allocationId, hId] at hShared
      obtain ⟨rfl, rfl⟩ := hApart hGet₁ hGet₂ hShared
      obtain ⟨b, hThere⟩ := hStill₁ rfl
      rw [(movedFrom_spec hFrom).2.2.1] at hThere
      cases hThere
  | moved hNode₁ hFrom₁ hGet₁ hId₁ _ hOwner₁ =>
    subst hNode₁
    cases origin h₂ with
    | entered hNode hVacant hFrom hGet =>
      subst hNode
      obtain ⟨-, rfl⟩ := hProper.alone c₂ a₂ hVacant hFrom hGet n₂ c₁ a₁ h₁ (hShared.imp Eq.symm Eq.symm)
      exact ⟨rfl, rfl⟩
    | stayed hGet₂ hSame₂ hOwner₂ hStill₂ =>
      rw [hOwner₁, hOwner₂, hId₁, hSame₂.allocationId] at hShared
      obtain ⟨rfl, rfl⟩ := hApart hGet₁ hGet₂ hShared
      obtain ⟨b, hThere⟩ := hStill₂ rfl
      rw [(movedFrom_spec hFrom₁).2.2.1] at hThere
      cases hThere
    | moved hNode₂ hFrom₂ _ _ _ _ =>
      subst hNode₂
      have hTargets := (target_of_movedFrom hFrom₁).symm.trans (target_of_movedFrom hFrom₂)
      exact ⟨rfl, (some.inj hTargets).symm⟩

theorem entered_at_source (hPacket : step.packet? = some (env, raw, src)) (hVacant : (f.nodes n).store.get c = none)
    (hGet : (step.apply (f.nodes n)).store.get c = some a) : c = src := by
  by_contra hNe
  obtain ⟨es, hOutcome⟩ := step.packet_outcome (f.nodes n) hPacket
  obtain hSame | ⟨hNone, -, -⟩ := hOutcome.elsewhere hNe
  · have hStill := hSame.symm.trans hGet
    rw [hVacant] at hStill
    cases hStill
  · cases hNone.symm.trans hGet

theorem moveOf_of_entered (hVacant : (f.nodes n).store.get c = none)
    (hFrom : step.movedFrom (f.nodes n) c = none) (hGet : (step.apply (f.nodes n)).store.get c = some a) :
    f.moveOf n step = none := by
  cases hMove : f.moveOf n step with
  | none => rfl
  | some m =>
    obtain ⟨c', old, b, -, hFrom', hOld, -⟩ := Fleet.moveOf_spec hMove
    obtain ⟨-, -, -, rest, hRun, hRest⟩ := movedFrom_spec hFrom'
    have hNeOld : old ≠ c := by
      rintro rfl
      rw [hOld] at hVacant
      cases hVacant
    have hNeTarget : c' ≠ c := by
      rintro rfl
      rw [hFrom] at hFrom'
      cases hFrom'
    have hStill : (step.apply (f.nodes n)).store.get c = none := by
      refine hRun.vacant_at hVacant fun e he => ?_
      obtain rfl | hIn := mem_cons.mp he
      · right
        simp [TableEvent.concerns, hNeOld, hNeTarget]
      · exact .inl (hRest e hIn)
    rw [hStill] at hGet
    cases hGet

theorem Fleet.issueOf_spec {i : Issue} (h : f.issueOf n step = some i) :
    ∃ env raw src, step.packet? = some (env, raw, src) ∧
      ((∃ m, f.moveOf n step = some m ∧ i.allocation = m.allocation ∧ i.id = m.id ∧
        ∀ a, (step.apply (f.nodes n)).store.get src = some a → i.epoch = a.migrationEpoch) ∨
      (f.moveOf n step = none ∧ (f.nodes n).store.get src = none ∧ ∃ a,
        (step.apply (f.nodes n)).store.get src = some a ∧ i.allocation = f.created ∧ i.id = a.allocationId ∧
          i.epoch = a.migrationEpoch)) := by
  rw [issueOf] at h
  split at h
  · cases h
  next env raw src hPacket =>
  refine ⟨env, raw, src, hPacket, ?_⟩
  dsimp only at h
  split at h
  · split at h
    · next m hMove =>
      cases h
      refine .inl ⟨m, hMove, rfl, rfl, fun a hGet => ?_⟩
      have hMap : (((step.run (f.nodes n)).2.store.get src).map Allocation.migrationEpoch) = some a.migrationEpoch :=
        congrArg (Option.map Allocation.migrationEpoch) hGet
      rw [hMap]
      rfl
    · next hMove =>
      obtain ⟨⟨id, epoch⟩, hNew, rfl⟩ := map_eq_some_iff.mp h
      rw [newTicket] at hNew
      obtain ⟨msg, -, hNew⟩ := bind_eq_some_iff.mp hNew
      obtain ⟨mgr, -, hNew⟩ := bind_eq_some_iff.mp hNew
      obtain ⟨a, hGet, hNew⟩ := bind_eq_some_iff.mp hNew
      split at hNew
      · next hAsked =>
        cases hNew
        exact .inr ⟨hMove, isNone_iff_eq_none.mp hAsked.2.2.2.2, a, hGet, rfl, rfl, rfl⟩
      · cases hNew
  · cases h

section

variable (h : f.Tidy) (hProper : f.Proper n step restored)
include h hProper

theorem Fleet.Tidy.own_move (hMove : f.moveOf n step = some m)
    (hGet : ((f.apply (.node n step restored)).nodes n').store.get c' = some a')
    (hShared : m.allocation = (f.apply (.node n step restored)).owner n' c' ∨ m.id = a'.allocationId) :
    n' = n ∧ step.target = some c' ∧ m.allocation = (f.apply (.node n step restored)).owner n' c' ∧
      m.id = a'.allocationId ∧ m.epoch < a'.migrationEpoch := by
  obtain ⟨c, old, b, hTarget, hFrom, hOld, hAllocation, hId, hEpoch, -⟩ := moveOf_spec hMove
  cases origin hGet with
  | @stayed a hGet₀ hSame hOwner hStill =>
    rw [hOwner, hSame.allocationId, hAllocation, hId] at hShared
    obtain ⟨rfl, rfl⟩ := h.alone n' c' a hGet₀ n old b hOld hShared
    obtain ⟨b', hThere⟩ := hStill rfl
    rw [(movedFrom_spec hFrom).2.2.1] at hThere
    cases hThere
  | @moved old' a hNode hFrom' hGet₀ hId' hEpoch' hOwner =>
    subst hNode
    have hTarget' := target_of_movedFrom hFrom'
    rw [hTarget] at hTarget'
    cases hTarget'
    rw [hFrom] at hFrom'
    cases hFrom'
    rw [hOld] at hGet₀
    cases hGet₀
    refine ⟨rfl, hTarget, hAllocation.trans hOwner.symm, hId.trans hId'.symm, ?_⟩
    rw [hEpoch', ← hEpoch]
    exact lt_succ_epoch (hProper.epoch m hMove)
  | entered hNode hVacant hFrom' hGet' =>
    rw [moveOf_of_entered hVacant hFrom' hGet'] at hMove
    cases hMove

theorem Fleet.Tidy.own_issue {i : Issue} (hIssue : f.issueOf n step = some i)
    (hGet : ((f.apply (.node n step restored)).nodes n').store.get c' = some a')
    (hShared : i.allocation = (f.apply (.node n step restored)).owner n' c' ∨ i.id = a'.allocationId) :
    i.allocation = (f.apply (.node n step restored)).owner n' c' ∧ i.id = a'.allocationId ∧
      i.epoch = a'.migrationEpoch := by
  obtain ⟨env, raw, src, hPacket, hCase⟩ := issueOf_spec hIssue
  obtain ⟨m, hMove, hAllocation, hId, hEpoch⟩ | ⟨hMove, hVacant, a, hSrc, hAllocation, hId, hEpoch⟩ := hCase
  · rw [hAllocation, hId] at hShared ⊢
    obtain ⟨rfl, hTarget, hSameAllocation, hSameId, -⟩ := h.own_move hProper hMove hGet hShared
    rw [target_packet hPacket] at hTarget
    cases hTarget
    rw [nodes_self] at hGet
    exact ⟨hSameAllocation, hSameId, hEpoch a' hGet⟩
  · have hFrom := (Fleet.moveOf_none (target_packet hPacket)).mp hMove
    have hOwner : (f.apply (.node n step restored)).owner n src = f.created := by
      rw [owner_self, ownerAfter, hFrom, hVacant, hPacket]
      rfl
    rw [hAllocation, ← hOwner, hId] at hShared
    obtain ⟨rfl, rfl⟩ := hProper.alone src a hVacant hFrom hSrc n' c' a' hGet (hShared.imp Eq.symm Eq.symm)
    rw [nodes_self, hSrc] at hGet
    cases hGet
    exact ⟨hAllocation.trans hOwner.symm, hId, hEpoch⟩

theorem Fleet.Tidy.own_step (hGet : ((f.apply (.node n step restored)).nodes n').store.get c' = some a') :
    (f.apply (.node n step restored)).Own ((f.apply (.node n step restored)).owner n' c') a' := by
  intro e he hShared
  replace he : e ∈ (f.issueOf n step).toList.map .issued ++ (f.moveOf n step).toList.map .moved ++ f.history := he
  obtain he | hPast := mem_append.mp he
  · obtain hNew | hNew := mem_append.mp he
    · obtain ⟨i, hIssue, rfl⟩ := mem_map.mp hNew
      obtain ⟨hAllocation, hId, hEpoch⟩ := h.own_issue hProper (mem_toList.mp hIssue) hGet hShared
      exact ⟨hAllocation, hId, UInt64.le_of_eq hEpoch⟩
    · obtain ⟨m, hMove, rfl⟩ := mem_map.mp hNew
      exact (h.own_move hProper (mem_toList.mp hMove) hGet hShared).2.2
  · cases origin hGet with
    | @stayed a hGet₀ hSame hOwner _ =>
      rw [hOwner, hSame.allocationId] at hShared ⊢
      rw [hSame.migrationEpoch]
      exact h.own n' c' a hGet₀ e hPast hShared
    | @moved old a hNode hFrom hGet₀ hId hEpoch hOwner =>
      subst hNode
      rw [hOwner, hId] at hShared ⊢
      obtain ⟨hAllocation, hSameId, hBefore⟩ := h.own n' old a hGet₀ e hPast hShared
      obtain ⟨m, hMove, hMoveEpoch⟩ := moveOf_some hFrom hGet₀
      have hLater := lt_succ_epoch (hProper.epoch m hMove)
      rw [hMoveEpoch, ← hEpoch] at hLater
      exact ⟨hAllocation, hSameId, hBefore.mono (UInt64.le_of_lt hLater)⟩
    | entered hNode hVacant hFrom hGet' =>
      subst hNode
      rw [owner_self] at hShared ⊢
      exact hProper.own c' a' hVacant hFrom hGet' e hPast hShared

theorem Fleet.Tidy.traced_move
    (hMove : f.moveOf n step = some m) (hPacket : step.packet?.isSome) : ∃ signed, m.signed = some signed ∧
      ∃ i, .issued i ∈ f.history ∧ i.payload = signed ∧ i.id = m.id ∧ i.epoch = m.epoch := by
  obtain ⟨⟨env, raw, src⟩, hPacket⟩ := isSome_iff_exists.mp hPacket
  obtain ⟨c, old, a, hTarget, hFrom, hGet, -, hId, hEpoch, hSigned⟩ := moveOf_spec hMove
  rw [target_packet hPacket] at hTarget
  cases hTarget
  obtain ⟨signed, hPresented, hNames⟩ := h.ticket_names hPacket hFrom hGet
  obtain ⟨i, hIn, hPayload⟩ := hProper.unforged env raw src signed hPacket hPresented
  obtain ⟨hSameId, hSameEpoch⟩ := hNames i hPayload
  rw [hPacket] at hSigned
  exact ⟨signed, hSigned.trans hPresented, i, hIn, hPayload, hSameId.trans hId.symm, hSameEpoch.trans hEpoch.symm⟩

end

theorem Fleet.packet_of_signed {signed : List Char} (hMove : f.moveOf n step = some m)
    (hSigned : m.signed = some signed) : step.packet?.isSome := by
  obtain ⟨c, old, a, -, -, -, -, -, -, hSome⟩ := moveOf_spec hMove
  rw [hSome] at hSigned
  obtain ⟨packet, hPacket, -⟩ := bind_eq_some_iff.mp hSigned
  rw [hPacket]
  rfl

theorem Fleet.Tidy.ordered_step (h : f.Tidy) : Ordered (f.apply (.node n step restored)).history := by
  have hMoves : Ordered ((f.moveOf n step).toList.map .moved ++ f.history) := by
    cases hMove : f.moveOf n step with
    | none => exact h.ordered
    | some m =>
      refine ⟨fun i hIn hSame => ?_, h.ordered⟩
      obtain ⟨c, old, a, -, -, hGet, hAllocation, -, hEpoch, -⟩ := moveOf_spec hMove
      rw [hEpoch]
      exact (h.own n old a hGet (.issued i) hIn (.inl (hSame.trans hAllocation))).2.2
  show Ordered ((f.issueOf n step).toList.map .issued ++ (f.moveOf n step).toList.map .moved ++ f.history)
  rw [append_assoc]
  cases f.issueOf n step with
  | none | some i => exact hMoves

theorem Fleet.Tidy.node_step (h : f.Tidy) (hProper : f.Proper n step restored) :
    (f.apply (.node n step restored)).Tidy where
  idSound n' := by
    by_cases hNode : n' = n
    · subst hNode
      rw [nodes_self]
      exact step.keeps (fun e s s' hStep hId => IdSound.step hId hStep) (f.nodes n') (h.idSound n')
    · rw [nodes_other hNode]
      exact h.idSound n'
  own _ _ _ hGet := h.own_step hProper hGet
  alone _ _ _ hGet := h.alone_step hProper hGet
  ordered := h.ordered_step
  traced m signed hIn hSigned := by
    have hLater : ∀ {e}, e ∈ f.history → e ∈ (f.apply (.node n step restored)).history :=
      fun he => mem_append_right _ he
    replace hIn : .moved m ∈ (f.issueOf n step).toList.map .issued ++ (f.moveOf n step).toList.map .moved ++ f.history :=
      hIn
    obtain ⟨i, hIssued, hNames⟩ :
        ∃ i, .issued i ∈ f.history ∧ i.payload = signed ∧ i.id = m.id ∧ i.epoch = m.epoch := by
      obtain hNew | hPast := mem_append.mp hIn
      · obtain hNew | hNew := mem_append.mp hNew
        · obtain ⟨i, -, hEq⟩ := mem_map.mp hNew
          cases hEq
        obtain ⟨m', hMove, hEq⟩ := mem_map.mp hNew
        cases hEq
        have hMove := mem_toList.mp hMove
        obtain ⟨signed', hSigned', hTraced⟩ := h.traced_move hProper hMove (packet_of_signed hMove hSigned)
        cases hSigned.symm.trans hSigned'
        exact hTraced
      · exact h.traced m signed hPast hSigned
    exact ⟨i, hLater hIssued, hNames⟩

theorem Fleet.Tidy.restart {p : Processor} (h : f.Tidy) (hEmpty : p.store.allocations = .empty)
    (hIds : p.store.idToClient = .empty) : (f.apply (.restart n p hEmpty hIds)).Tidy := by
  have hOther : ∀ {n' c a}, ((f.apply (.restart n p hEmpty hIds)).nodes n').store.get c = some a →
      (f.nodes n').store.get c = some a := by
    intro n' c a hGet
    by_cases hNode : n' = n
    · subst hNode
      have hNodes : (f.apply (.restart n' p hEmpty hIds)).nodes n' = p := update_self ..
      rw [hNodes, AllocationStore.get, hEmpty] at hGet
      cases hGet
    · have hNodes : (f.apply (.restart n p hEmpty hIds)).nodes n' = f.nodes n' := update_of_ne hNode ..
      rwa [hNodes] at hGet
  refine ⟨fun n' => ?_, fun n' c a hGet => h.own n' c a (hOther hGet), fun n' c a hGet => ?_, h.ordered, h.traced⟩
  · by_cases hNode : n' = n
    · subst hNode
      have hNodes : (f.apply (.restart n' p hEmpty hIds)).nodes n' = p := update_self ..
      rw [hNodes]
      intro id c hIndex
      rw [getById, hIds] at hIndex
      cases hIndex
    · have hNodes : (f.apply (.restart n p hEmpty hIds)).nodes n' = f.nodes n' := update_of_ne hNode ..
      rw [hNodes]
      exact h.idSound n'
  · exact fun n'' c'' a'' hGet'' => h.alone n' c a (hOther hGet) n'' c'' a'' (hOther hGet'')

end Invariant

theorem Fleet.Tidy.step (h : f.Tidy) {step : FleetStep} (hAllows : f.Allows step) : (f.apply step).Tidy := by
  cases step with
  | node n step restored => exact h.node_step hAllows
  | restart n p hEmpty hIds => exact h.restart hEmpty hIds

theorem Fleet.Tidy.ticketSound (h : f.Tidy) {step : FleetStep} (hAllows : f.Allows step) : f.TicketSound step := by
  cases step with
  | restart n p hEmpty hIds => trivial
  | node n step restored =>
    intro m hPacket hMove
    obtain ⟨c, old, a, -, -, hGet, hAllocation, hId, hEpoch, -⟩ := moveOf_spec hMove
    obtain ⟨signed, hSigned, i, hIn, hPayload, hSameId, hSameEpoch⟩ := h.traced_move hAllows hMove hPacket
    have hOwn := h.own n old a hGet
    -- every other event of the ticket's id is one of this allocation
    have hNamed : ∀ {i' : Issue}, i'.payload = signed → i'.id = a.allocationId ∧ i'.epoch = a.migrationEpoch := by
      intro i' hPayload'
      obtain ⟨hId', hEpoch'⟩ := payload_inj (hPayload'.trans hPayload.symm)
      exact ⟨hId'.trans (hSameId.trans hId), hEpoch'.trans (hSameEpoch.trans hEpoch)⟩
    refine ⟨signed, hSigned, ⟨i, hIn, ?_, hPayload, hSameEpoch⟩, fun m' hMoved hUsed => ?_, ?_⟩
    · exact (hOwn _ hIn (.inr (hNamed hPayload).1)).1.trans hAllocation.symm
    · obtain ⟨i', -, hPayload', hId', hEpoch'⟩ := h.traced m' signed hMoved hUsed
      obtain ⟨hThisId, hThisEpoch⟩ := hNamed hPayload'
      have hBefore := (hOwn _ hMoved (.inr (hId'.symm.trans hThisId))).2.2
      rw [TicketEvent.Before, ← hEpoch', hThisEpoch] at hBefore
      exact UInt64.lt_irrefl _ hBefore
    · intro newer m' older i' hHistory hOlder hSame hPayload'
      obtain ⟨hThisId, hThisEpoch⟩ := hNamed hPayload'
      have hMem : ∀ e ∈ TicketEvent.moved m' :: older, e ∈ f.history := by
        intro e he
        rw [hHistory]
        exact mem_append_right _ he
      have hIssued := hOwn _ (hMem _ (mem_cons_of_mem _ hOlder)) (.inr hThisId)
      have hBefore := (hOwn _ (hMem _ mem_cons_self) (.inl (hSame.symm.trans hIssued.1))).2.2
      have hOrder := (hHistory ▸ h.ordered : Ordered (newer ++ .moved m' :: older)).at_move hOlder hSame
      rw [hThisEpoch] at hOrder
      exact UInt64.lt_irrefl _ (UInt64.lt_of_lt_of_le hBefore hOrder)

structure Fleet.Started (f : Fleet) : Prop where
  empty : ∀ n, (f.nodes n).store.allocations = .empty
  ids : ∀ n, (f.nodes n).store.idToClient = .empty
  unused : f.history = []

theorem Fleet.Started.tidy (h : f.Started) : f.Tidy := by
  have hNone : ∀ {n c a}, (f.nodes n).store.get c = some a → False := by
    intro n c a hGet
    rw [AllocationStore.get, h.empty] at hGet
    cases hGet
  refine ⟨fun n id c hIndex => ?_, fun _ _ _ hGet => (hNone hGet).elim, fun _ _ _ hGet => (hNone hGet).elim, ?_, ?_⟩
  · rw [getById, h.ids] at hIndex
    cases hIndex
  · rw [h.unused]
    trivial
  · intro m signed hIn
    rw [h.unused] at hIn
    cases hIn

/-! ## The results -/

/-- As long as allocations come into the tables under ids of their own, a Refresh moves only the allocation that its
ticket was issued for, once and at its epoch. -/
theorem tickets_sound (f : Fleet) (steps : List FleetStep) (hStarted : f.Started)
    (hAllowed : Trace.Allowed Fleet.apply Fleet.Allows f steps) :
    Trace.Allowed Fleet.apply Fleet.TicketSound f steps ∧
    ∀ (mgr : MigrationManager) (c : Primitives) (issuedSecs nowSecs : UInt64) (id : String) (epoch : UInt64),
      mgr.verifyTicket c nowSecs (mgr.issueToken c issuedSecs id epoch) =
        if nowSecs.toNat - issuedSecs.toNat ≤ mgr.tokenTtlSecs then some (id, epoch) else none := by
  refine ⟨?_, fun mgr c => mgr.verifyTicket_issueToken c⟩
  exact hAllowed.imp (fun f step hTidy hAllows => Fleet.Tidy.step hTidy hAllows)
    (fun f step hTidy hAllows => Fleet.Tidy.ticketSound hTidy hAllows) hStarted.tidy

namespace Scenario

def fleet : Fleet := ⟨fun _ => server, fun _ _ => 0, 0, []⟩

def arrival (now : Nat) (msg : StunMessage) (host : UInt8) : NodeStep :=
  .process (surroundings longTerm now) (wire msg) (client host)

def optIn (tid : UInt8) (user : String) : StunMessage :=
  request .allocate tid user [.requestedTransport transportUdp, .mobilityTicket []]

def ticketIn : List Action → Option Bytes
  | .send data _ :: _ => (StunMessage.decode data).toOption.bind StunMessage.getMobilityTicket
  | _ :: actions => ticketIn actions
  | [] => none

def aliceTicket : Bytes := (ticketIn ((arrival 5 (optIn 1 "alice") 1).run server).1).getD []

def aliceReturns : NodeStep := arrival 8 (request .refresh 3 "alice" [.mobilityTicket aliceTicket]) 3

end Scenario

section Runs
open Scenario

theorem fleet_started : fleet.Started := ⟨fun _ => rfl, fun _ => rfl, rfl⟩

def aliceAllocates : FleetStep := .node 0 (arrival 5 (optIn 1 "alice") 1) fun _ => 0

theorem aliceAllocates_proper : fleet.Allows aliceAllocates := by
  have hSource : ∀ {c a}, ((arrival 5 (optIn 1 "alice") 1).apply server).store.get c = some a → c = client 1 :=
    fun hGet => entered_at_source (f := fleet) (n := 0) rfl rfl hGet
  have hNone : (fleet.moveOf 0 (arrival 5 (optIn 1 "alice") 1)).isNone := by decide +kernel
  refine ⟨fun _ _ _ _ _ => nofun, fun c a _ _ hGet n' c' a' hGet' _ => ?_, fun m hMove => ?_, ?_⟩
  · by_cases hNode : n' = 0
    · subst hNode
      rw [Fleet.nodes_self] at hGet'
      exact ⟨rfl, (hSource hGet').trans (hSource hGet).symm⟩
    · rw [Fleet.nodes_other hNode] at hGet'
      cases hGet'
  · rw [hMove] at hNone
    cases hNone
  · intro env raw src signed hPacket hPresented
    cases hPacket
    have hNotRefresh : (fleet.nodes 0).presented (surroundings longTerm 5) (wire (optIn 1 "alice")) = none := by
      decide +kernel
    rw [hNotRefresh] at hPresented
    cases hPresented

theorem aliceReturns_proper : (fleet.apply aliceAllocates).Allows (.node 0 aliceReturns fun _ => 0) := by
  have hMove : (fleet.apply aliceAllocates).moveOf 0 aliceReturns =
      some ⟨0, "0000000000000001", 0, some "0000000000000001:0:0".toList⟩ := by decide +kernel
  have hEntered : ∀ {c a}, ((fleet.apply aliceAllocates).nodes 0).store.get c = none →
      aliceReturns.movedFrom ((fleet.apply aliceAllocates).nodes 0) c = none →
      (aliceReturns.apply ((fleet.apply aliceAllocates).nodes 0)).store.get c = some a → False := by
    intro c a hVacant hFrom hGet
    rw [moveOf_of_entered hVacant hFrom hGet] at hMove
    cases hMove
  refine ⟨fun c a hVacant hFrom hGet => (hEntered hVacant hFrom hGet).elim,
    fun c a hVacant hFrom hGet => (hEntered hVacant hFrom hGet).elim, fun m hSome => ?_, ?_⟩
  · rw [hMove] at hSome
    cases hSome
    decide
  intro env raw src signed hPacket hPresented
  rw [aliceReturns, arrival, packet?, some.injEq, Prod.mk.injEq, Prod.mk.injEq] at hPacket
  obtain ⟨rfl, rfl, -⟩ := hPacket
  have hSigned : ((fleet.apply aliceAllocates).nodes 0).presented (surroundings longTerm 8)
      (wire (request .refresh 3 "alice" [.mobilityTicket aliceTicket])) = some "0000000000000001:0:0".toList := by
    decide +kernel
  rw [hSigned] at hPresented
  cases hPresented
  refine ⟨⟨0, "0000000000000001", 0, 0⟩, ?_, ?_⟩
  · have hHistory : (fleet.apply aliceAllocates).history = [.issued ⟨0, "0000000000000001", 0, 0⟩] := by
      decide +kernel
    rw [hHistory]
    exact mem_singleton_self _
  · decide +kernel

theorem tickets_sound_move :
    Trace.Allowed Fleet.apply Fleet.TicketSound fleet [aliceAllocates, .node 0 aliceReturns fun _ => 0] ∧
      ((fleet.apply aliceAllocates).moveOf 0 aliceReturns).isSome ∧
      MigrationManager.verifyTicket ⟨[7], 3600⟩ primitives 3601
        (MigrationManager.issueToken ⟨[7], 3600⟩ primitives 0 "a:b" 5) = none := by
  obtain ⟨hSound, hRoundTrip⟩ := tickets_sound fleet [aliceAllocates, .node 0 aliceReturns fun _ => 0] fleet_started
      ⟨aliceAllocates_proper, aliceReturns_proper, trivial⟩
  exact ⟨hSound, by decide +kernel, hRoundTrip ⟨[7], 3600⟩ primitives 0 3601 "a:b" 5⟩

/-- A restarted process gives Bob the id of Alice's lost allocation, and Alice's ticket moves Bob's. -/
theorem ticket_moves_other_allocation : fleet.Started ∧ ¬ Trace.Allowed Fleet.apply Fleet.TicketSound fleet
        [aliceAllocates, .restart 0 server rfl rfl,
          .node 0 (arrival 7 (Scenario.allocateUdp 2 "bob") 2) fun _ => 0, .node 0 aliceReturns fun _ => 0] ∧
      (((Trace.run Fleet.apply fleet
        [aliceAllocates, .restart 0 server rfl rfl,
          .node 0 (arrival 7 (Scenario.allocateUdp 2 "bob") 2) fun _ => 0, .node 0 aliceReturns fun _ => 0]).nodes
            0).store.get (client 3)).map Allocation.username = some "bob" := by
  refine ⟨fleet_started, ?_, by decide +kernel⟩
  rintro ⟨-, -, -, hSound, -⟩
  obtain ⟨signed, -, ⟨i, hIn, hAllocation, -⟩, -⟩ :=
    hSound ⟨1, "0000000000000001", 0, some "0000000000000001:0:0".toList⟩ rfl (by decide +kernel)
  have hHistory : (((fleet.apply aliceAllocates).apply (.restart 0 server rfl rfl)).apply
      (.node 0 (arrival 7 (Scenario.allocateUdp 2 "bob") 2) fun _ => 0)).history =
        [.issued ⟨0, "0000000000000001", 0, 0⟩] := by decide +kernel
  rw [hHistory] at hIn
  cases mem_singleton.mp hIn
  cases hAllocation

end Runs

end Turna.Relay
