import Turna.StateBackend.CommandRun

/-! # Fenced completion

A command is completed by the claim that holds it, at most once. Its status moves from pending over
in-progress to a terminal one; only the finalization of a stale command skips the claim.
-/

namespace Turna.StateBackend
open Lib ManagementBackend HashMap List PendingCommand CommandOp

inductive StatusMove (finalizing : Prop) : CommandStatus → CommandStatus → Prop where
  | claim : StatusMove finalizing .pending .inProgress
  | reclaim : StatusMove finalizing .inProgress .inProgress
  | done : StatusMove finalizing .inProgress .done
  | failed : StatusMove finalizing .inProgress .failed
  | finalize (hFinalizing : finalizing) : StatusMove finalizing .pending .done

def CommandOp.IsFinalize (op : CommandOp) : Prop :=
  ∃ now id incarnation result, op = .finalizeStale now id incarnation result

def CommandOp.ends : CommandOp → String → PendingCommand → Option ResultText
  | .claim req, _, c =>
    if c.targets req.nodeId req.incarnation ∧ c.claimable req.now ∧ maxCommandAttempts ≤ c.attempts then
      some .deadLetter
    else none
  | .complete _ id claimedBy token _ result, id', c =>
    if id' = id ∧ c.status = .inProgress ∧ c.claimedBy = claimedBy ∧ c.claimToken = token then some result else none
  | .finalizeStale _ id incarnation result, id', c =>
    if id' = id ∧ c.status.terminal = false ∧ c.stale incarnation then some result else none
  | _, _, _ => none

structure PendingCommand.Follows (finalizing : Prop) (c c' : PendingCommand) : Prop where
  status : Relation.ReflGen (StatusMove finalizing) c.status c'.status
  attempts : c.attempts ≤ c'.attempts
  frozen : c.status.terminal = true → c'.status = c.status ∧ c'.result = c.result

/-- A command is claimed a bounded number of times and completed at most once, and the token of a running claim is the
one minted last. -/
structure Fenced (h : LogHistory) : Prop where
  once : h.completions.Nodup
  closed : ∀ id ∈ h.completions, ∃ c, h.command id = some c ∧ c.status.terminal = true
  attempts : ∀ id c, h.command id = some c → c.attempts ≤ maxCommandAttempts
  latest : ∀ id c, h.command id = some c → c.status = .inProgress → h.latestToken id = some c.claimToken
  distinct : (h.claims.map Prod.snd).Nodup

structure FencedStep (h : LogHistory) (op : CommandOp) : Prop where
  follows : ∀ id c, h.command id = some c →
    ∃ c', (op.apply h).command id = some c' ∧ c.Follows op.IsFinalize c'
  completes : ∀ now id claimedBy token status result, op = .complete now id claimedBy token status result →
    (h.backend.completeCommand now id claimedBy token status result).1 = true →
      h.latestToken id = some token ∧ id ∉ h.completions ∧
        ∃ c, h.command id = some c ∧ c.status = .inProgress
  leased : ∀ req id c, op = .claim req → h.command id = some c → c.status = .inProgress →
    req.now < c.leaseUntilMs → (op.apply h).command id = some c

namespace PendingCommand

variable {finalizing : Prop} {c : PendingCommand}

theorem Follows.refl (c : PendingCommand) : c.Follows finalizing c := ⟨.refl, Nat.le_refl _, fun _ => ⟨rfl, rfl⟩⟩

def WellTyped (c : PendingCommand) : Prop :=
  c.status = .pending ∨ c.status = .inProgress ∨ c.status = .done ∨ c.status = .failed

variable {now : Nat}

theorem claimable_open (h : c.claimable now = true) : c.status = .pending ∨ c.status = .inProgress := by
  rw [claimable, Bool.or_eq_true, Bool.and_eq_true] at h
  obtain h | h := h
  · exact .inl (eq_of_beq h)
  · exact .inr (eq_of_beq h.1)

theorem not_terminal_of_open (h : c.status = .pending ∨ c.status = .inProgress) : c.status.terminal = false := by
  obtain h | h := h <;> rw [h] <;> rfl

variable {status : CommandStatus} {result : ResultText} {nodeId : String}

theorem attempts_claim {token : String} {leaseMs : Nat} (h : c.attempts < maxCommandAttempts) :
    (c.claim nodeId token leaseMs now).attempts = c.attempts + 1 := by
  have hMax : maxCommandAttempts = 5 := rfl
  have hAdd : (c.claim nodeId token leaseMs now).attempts = min (c.attempts + 1) (2 ^ 32 - 1) := rfl
  omega

theorem finish_ne (hOpen : c.status.terminal = false)
    (hStatus : status.terminal = true) : c.finish status result now ≠ c := by
  intro hEq
  rw [← congrArg PendingCommand.status hEq] at hOpen
  have hOpen : status.terminal = false := hOpen
  rw [hStatus] at hOpen
  cases hOpen

theorem follows_claim {token : String} {leaseMs : Nat} (h : c.claimable now = true)
    (hAttempts : c.attempts < maxCommandAttempts) : c.Follows finalizing (c.claim nodeId token leaseMs now) where
  status := by
    obtain hStatus | hStatus := claimable_open h
    · rw [hStatus]
      exact .single .claim
    · rw [hStatus]
      exact .single .reclaim
  attempts := by
    rw [attempts_claim hAttempts]
    exact Nat.le_succ _
  frozen hTerminal := by
    rw [not_terminal_of_open (claimable_open h)] at hTerminal
    cases hTerminal

theorem follows_finish (hOpen : c.status.terminal = false) (hMove : StatusMove finalizing c.status status) :
    c.Follows finalizing (c.finish status result now) where
  status := .single hMove
  attempts := Nat.le_refl _
  frozen hTerminal := by
    rw [hOpen] at hTerminal
    cases hTerminal

end PendingCommand

theorem CommandStatus.terminal_cases {status : CommandStatus} (h : status.terminal = true) :
    status = .done ∨ status = .failed := by
  cases status with
  | done => exact .inl rfl
  | failed => exact .inr rfl
  | _ => cases h

/-! ## What becomes of one command -/

inductive CommandChange (op : CommandOp) (minted : Prop) (id : String) :
    Option PendingCommand → Option PendingCommand → Prop where
  | same {c : Option PendingCommand} : CommandChange op minted id c c
  | new {now : Nat} {req : EnqueueRequest} (hOp : op = .enqueue now req) (hId : id = req.requestId) :
      CommandChange op minted id none (some (req.command now))
  | claim {req : ClaimRequest} {c : PendingCommand} {token : String} (hMinted : minted) (hOp : op = .claim req)
      (hClaimable : c.claimable req.now = true) (hAttempts : c.attempts < maxCommandAttempts) :
      CommandChange op minted id (some c) (some (c.claim req.nodeId token req.leaseMs req.now))
  | finish {c : PendingCommand} {status : CommandStatus} {result : ResultText} {now : Nat}
      (hOpen : c.status.terminal = false) (hStatus : status.terminal = true) (hEnds : op.ends id c = some result)
      (hMove : c.status = .inProgress ∨ maxCommandAttempts ≤ c.attempts ∨ (status = .done ∧ op.IsFinalize)) :
      CommandChange op minted id (some c) (some (c.finish status result now))

section Change

variable {op : CommandOp} {h₀ h h' : LogHistory}

theorem LogEffect.change (hKeep : op.CallersKeep h₀) (hEffect : LogEffect op h₀ h h') (id : String) :
    CommandChange op (h'.claims ≠ h.claims) id (h.command id) (h'.command id) ∧
      (h'.command id = h.command id ∨ h.command id = h₀.command id) := by
  have hQuiet {m : String → Option PendingCommand} (hCommands : ∀ i, m i = h.command i) :
      CommandChange op (h'.claims ≠ h.claims) id (h.command id) (m id) ∧ (m id = h.command id ∨ h.command id = h₀.command id) := by
    rw [hCommands]
    exact ⟨.same, .inl rfl⟩
  have hInsert {m : String → Option PendingCommand} {now : Nat} {req : EnqueueRequest} (hOp : op = .enqueue now req)
      (hStart : h = h₀) (hCommands : ∀ i, m i =
        if i = req.requestId then some ((h.command req.requestId).getD (req.command now)) else h.command i) :
      CommandChange op (h'.claims ≠ h.claims) id (h.command id) (m id) ∧ (m id = h.command id ∨ h.command id = h₀.command id) := by
    refine ⟨?_, .inr (hStart ▸ rfl)⟩
    rw [hCommands]
    split
    · next hId =>
      rw [← hId]
      cases h.command id with
      | none => exact .new hOp hId
      | some c => exact .same
    · exact .same
  have hReplace {m : String → Option PendingCommand} {id' : String} {c c' : PendingCommand}
      (hCommands : ∀ i, m i = if i = id' then some c' else h.command i) (hStart : h₀.command id' = some c)
      (hAt : h.command id' = some c) (hChange : CommandChange op (h'.claims ≠ h.claims) id' (some c) (some c')) :
      CommandChange op (h'.claims ≠ h.claims) id (h.command id) (m id) ∧ (m id = h.command id ∨ h.command id = h₀.command id) := by
    rw [hCommands]
    split
    · next hId =>
      rw [hId, hAt, hStart]
      exact ⟨hChange, .inr rfl⟩
    · exact ⟨.same, .inl rfl⟩
  cases hEffect with
  | quiet hCommands | journal _ _ _ hCommands => exact hQuiet hCommands
  | plain hOp hStart _ hCommands | keyed hOp hStart _ _ hCommands => exact hInsert hOp hStart hCommands
  | claim hOp hStart hAt hClaimable hAttempts =>
    exact hReplace (fun _ => get_insert ..) hStart hAt (.claim (cons_ne_self _ _) hOp hClaimable hAttempts)
  | deadLetter hOp hStart hAt hTargets hClaimable hAttempts =>
    subst hOp
    exact hReplace (finishCommand_command _ _ _ _ _ _) hStart hAt
      (.finish (not_terminal_of_open (claimable_open hClaimable)) rfl
        (if_pos ⟨hTargets, hClaimable, hAttempts⟩) (.inr (.inl hAttempts)))
  | complete hOp hStart hAt hStatus hClaimedBy hToken =>
    subst hOp
    exact hReplace (finishCommand_command _ _ _ _ _ _) hStart hAt
      (.finish (not_terminal_of_open (.inr hStatus)) hKeep
        (if_pos ⟨rfl, hStatus, hClaimedBy, hToken⟩) (.inl hStatus))
  | finalize hOp hStart hAt hOpen hStale =>
    subst hOp
    exact hReplace (finishCommand_command _ _ _ _ _ _) hStart hAt
      (.finish hOpen rfl (if_pos ⟨rfl, hOpen, hStale⟩) (.inr (.inr ⟨rfl, _, _, _, _, rfl⟩)))

/-- The operations of a node at its apply point leave the commands alone. -/
theorem LogEffects.command_eq (hKeep : op.CallersKeep h₀) (hWork : op.isWork = true)
    (hEffects : LogEffects op h₀ h h') (id : String) : h'.command id = h.command id := by
  induction hEffects with
  | refl => rfl
  | @tail h₁ h₂ _ hEffect ih =>
    rw [← ih]
    obtain ⟨hChange, -⟩ := hEffect.change hKeep id
    generalize h₁.command id = before at hChange ⊢
    generalize h₂.command id = after at hChange ⊢
    cases hChange with
    | same => rfl
    | new hOp | claim _ hOp =>
      subst hOp
      cases hWork
    | finish _ _ hEnds => cases op <;> first | cases hEnds | cases hWork

end Change

/-! ## The invariant -/

structure FencedInvariant (h : LogHistory) : Prop extends Fenced h where
  keyed : ∀ id c, h.command id = some c → c.requestId = id
  typed : ∀ id c, h.command id = some c → c.WellTyped
  unclaimed : ∀ id c, h.command id = some c → c.status = .pending → c.attempts = 0

namespace FencedInvariant

variable {h h' : LogHistory}

theorem new : FencedInvariant .new where
  once := nodup_nil
  closed _ hMem := by cases hMem
  attempts _ _ hGet := by cases hGet
  latest _ _ hGet := by cases hGet
  distinct := nodup_nil
  keyed _ _ hGet := by cases hGet
  typed _ _ hGet := by cases hGet
  unclaimed _ _ hGet := by cases hGet

theorem not_completed (hInv : FencedInvariant h) {id : String} {c : PendingCommand}
    (hGet : h.command id = some c) (hOpen : c.status.terminal = false) : id ∉ h.completions := by
  intro hMem
  obtain ⟨c', hGet', hTerminal⟩ := hInv.closed id hMem
  rw [hGet] at hGet'
  cases hGet'
  rw [hOpen] at hTerminal
  cases hTerminal

variable {op : CommandOp} {h₀ : LogHistory}

section

variable (hKeep : op.CallersKeep h₀) (hInv : FencedInvariant h) (hEffect : LogEffect op h₀ h h')
include hKeep hInv hEffect

theorem fits {id : String}
    {c : PendingCommand} (hGet : h'.command id = some c) : c.requestId = id ∧ c.attempts ≤ maxCommandAttempts ∧
      c.WellTyped ∧ (c.status = .pending → c.attempts = 0) := by
  obtain ⟨hChange, -⟩ := hEffect.change hKeep id
  rw [hGet] at hChange
  generalize hBefore : h.command id = before at hChange
  cases hChange with
  | same => exact ⟨hInv.keyed _ _ hBefore, hInv.attempts _ _ hBefore, hInv.typed _ _ hBefore, hInv.unclaimed _ _ hBefore⟩
  | new hOp hId => exact ⟨hId.symm, Nat.zero_le _, .inl rfl, fun _ => rfl⟩
  | claim hMinted hOp hClaimable hAttempts =>
    have hKeyed := hInv.keyed _ _ hBefore
    exact ⟨hKeyed, Nat.le_trans (Nat.min_le_left _ _) hAttempts, .inr (.inl rfl), nofun⟩
  | finish hOpen hStatus =>
    have hKeyed := hInv.keyed _ _ hBefore
    have hAttempts := hInv.attempts _ _ hBefore
    refine ⟨hKeyed, hAttempts, .inr (.inr (CommandStatus.terminal_cases hStatus)), ?_⟩
    rintro rfl
    cases hStatus

theorem closed_kept
    {id : String} (hMem : id ∈ h.completions) : ∃ c, h'.command id = some c ∧ c.status.terminal = true := by
  obtain ⟨c, hGet, hTerminal⟩ := hInv.closed id hMem
  obtain ⟨hChange, -⟩ := hEffect.change hKeep id
  rw [hGet] at hChange
  generalize h'.command id = after at hChange ⊢
  cases hChange with
  | same => exact ⟨c, rfl, hTerminal⟩
  | claim _ _ hClaimable =>
    rw [not_terminal_of_open (claimable_open hClaimable)] at hTerminal
    cases hTerminal
  | finish hOpen => cases hOpen.symm.trans hTerminal

/-- The effects that mint no token. -/
theorem still (hClaims : h'.claims = h.claims) (hOnce : h'.completions.Nodup)
    (hClosed : ∀ id ∈ h'.completions, id ∈ h.completions ∨ ∃ c, h'.command id = some c ∧ c.status.terminal = true) :
    FencedInvariant h' where
  once := hOnce
  closed id hMem := by
    obtain hMem | hNow := hClosed id hMem
    · exact hInv.closed_kept hKeep hEffect hMem
    · exact hNow
  attempts id c hGet := (hInv.fits hKeep hEffect hGet).2.1
  latest id c hGet hRunning := by
    obtain ⟨hChange, -⟩ := hEffect.change hKeep id
    rw [hGet] at hChange
    rw [LogHistory.latestToken, hClaims]
    generalize hBefore : h.command id = before at hChange
    cases hChange with
    | same => exact hInv.latest id c hBefore hRunning
    | new => cases hRunning
    | claim hMinted => exact absurd hClaims hMinted
    | finish hOpen hStatus =>
      obtain rfl : _ = CommandStatus.inProgress := hRunning
      cases hStatus
  distinct := hClaims ▸ hInv.distinct
  keyed id c hGet := (hInv.fits hKeep hEffect hGet).1
  typed id c hGet := (hInv.fits hKeep hEffect hGet).2.2.1
  unclaimed id c hGet := (hInv.fits hKeep hEffect hGet).2.2.2

theorem effect : FencedInvariant h' := by
  have hFits (id : String) (c : PendingCommand) := @fits _ _ _ _ hKeep hInv hEffect id c
  have hKept (id : String) := @closed_kept _ _ _ _ hKeep hInv hEffect id
  have hStill := hInv.still hKeep hEffect
  cases hEffect with
  | @claim req id c n hOp hStart hGet hClaimable hAttempts hToken =>
    refine ⟨⟨hInv.once, hKept, fun id' c' hGet' => (hFits id' c' hGet').2.1, fun id' c' hGet' hRunning => ?_, ?_⟩,
      fun id' c' hGet' => (hFits id' c' hGet').1, fun id' c' hGet' => (hFits id' c' hGet').2.2.1,
      fun id' c' hGet' => (hFits id' c' hGet').2.2.2⟩
    · rw [LogHistory.command, get_insert] at hGet'
      rw [LogHistory.latestToken, find?_cons, hInv.keyed id c hGet]
      split at hGet'
      · next hId =>
        cases hGet'
        rw [hId, beq_self_eq_true]
        rfl
      · next hId =>
        rw [beq_false_of_ne (Ne.symm hId)]
        exact hInv.latest id' c' hGet' hRunning
    · rw [map_cons, nodup_cons]
      refine ⟨fun hMem => ?_, hInv.distinct⟩
      obtain ⟨p, hp, hEq⟩ := mem_map.mp hMem
      exact hToken p hp hEq
  | @complete now id claimedBy token status result c hOp hStart hGet hStatus =>
    subst hOp
    refine hStill rfl (nodup_cons.mpr ⟨?_, hInv.once⟩) fun id' hMem => ?_
    · exact hInv.not_completed hGet (not_terminal_of_open (.inr hStatus))
    obtain rfl | hMem := mem_cons.mp hMem
    · exact .inr ⟨_, (finishCommand_command ..).trans (if_pos rfl), hKeep⟩
    · exact .inl hMem
  | _ => exact hStill rfl hInv.once fun _ hMem => .inl hMem

end

theorem effects {op : CommandOp} {h₀ : LogHistory} (hKeep : op.CallersKeep h₀) (hInv : FencedInvariant h)
    (hEffects : LogEffects op h₀ h h') : FencedInvariant h' := by
  induction hEffects with
  | refl => exact hInv
  | tail _ hEffect ih => exact ih.effect hKeep hEffect

theorem run {ops : List CommandOp} (hRun : Trace.Allowed CommandOp.apply CommandOp.KeepsLog .new ops) :
    FencedInvariant (Trace.run CommandOp.apply .new ops) :=
  hRun.invariant FencedInvariant
    (fun _ _ hInv hOk => hInv.effects hOk.2 (CommandOp.effects hOk.1 hOk.2)) .new

end FencedInvariant

/-! ## Steps -/

section Step

variable {op : CommandOp} {h₀ h h' : LogHistory} {id : String} {c : PendingCommand}

def MovedOnce (op : CommandOp) (c : PendingCommand) (now : Option PendingCommand) : Prop :=
  now = some c ∨ ∃ c', now = some c' ∧ c' ≠ c ∧ c.Follows op.IsFinalize c'

theorem LogEffect.movedOnce (hKeep : op.CallersKeep h₀) (hInv : FencedInvariant h)
    (hEffect : LogEffect op h₀ h h') (hGet : h.command id = some c) : MovedOnce op c (h'.command id) := by
  obtain ⟨hChange, -⟩ := hEffect.change hKeep id
  rw [hGet] at hChange
  generalize h'.command id = after at hChange ⊢
  cases hChange with
  | same => exact .inl rfl
  | claim hMinted hOp hClaimable hAttempts =>
    refine .inr ⟨_, rfl, fun hEq => ?_, follows_claim hClaimable hAttempts⟩
    have hCount := congrArg attempts hEq
    rw [attempts_claim hAttempts] at hCount
    omega
  | finish hOpen hStatus hEnds hMove =>
    refine .inr ⟨_, rfl, finish_ne hOpen hStatus, follows_finish hOpen ?_⟩
    obtain hPending | hRunning | hDone | hFailed := hInv.typed _ _ hGet
    · obtain hRunning | hAttempts | ⟨rfl, hFinalize⟩ := hMove
      · cases hPending.symm.trans hRunning
      · rw [hInv.unclaimed _ _ hGet hPending] at hAttempts
        cases hAttempts
      · rw [hPending]
        exact .finalize hFinalize
    · rw [hRunning]
      obtain rfl | rfl := CommandStatus.terminal_cases hStatus
      · exact .done
      · exact .failed
    · rw [hDone] at hOpen
      cases hOpen
    · rw [hFailed] at hOpen
      cases hOpen

theorem LogEffects.movedOnce (hKeep : op.CallersKeep h) (hInv : FencedInvariant h)
    (hEffects : LogEffects op h h h') (hGet : h.command id = some c) : MovedOnce op c (h'.command id) := by
  induction hEffects with
  | refl => exact .inl hGet
  | tail hBefore hEffect ih =>
    obtain hSame | ⟨c', hGet', hNe, hFollows⟩ := ih
    · exact hEffect.movedOnce hKeep (hInv.effects hKeep hBefore) hSame
    obtain hSame | hStart := (hEffect.change hKeep id).2
    · exact .inr ⟨c', hSame.trans hGet', hNe, hFollows⟩
    · rw [hGet', hGet] at hStart
      exact absurd (Option.some.inj hStart) hNe

theorem CommandOp.follows (hInv : FencedInvariant h) (hOk : op.KeepsLog h) (hGet : h.command id = some c) :
    ∃ c', (op.apply h).command id = some c' ∧ c.Follows op.IsFinalize c' := by
  obtain hSame | ⟨c', hGet', -, hFollows⟩ := LogEffects.movedOnce hOk.2 hInv (effects hOk.1 hOk.2) hGet
  · exact ⟨c, hSame, .refl c⟩
  · exact ⟨c', hGet', hFollows⟩

theorem leased_claim {req : ClaimRequest} (hKeep : CommandOp.CallersKeep h (.claim req))
    (hEffects : LogEffects (.claim req) h h h') (hGet : h.command id = some c) (hStatus : c.status = .inProgress)
    (hLease : req.now < c.leaseUntilMs) : h'.command id = some c := by
  have hHeld : c.claimable req.now = false := by
    rw [claimable, hStatus, decide_eq_false (Nat.not_le.mpr hLease)]
    rfl
  induction hEffects with
  | refl => exact hGet
  | @tail _ h'' hBefore hEffect ih =>
    obtain ⟨hChange, -⟩ := hEffect.change hKeep id
    rw [ih] at hChange
    generalize h''.command id = after at hChange ⊢
    cases hChange with
    | same => rfl
    | claim hMinted hOp hClaimable =>
      cases hOp
      cases hHeld.symm.trans hClaimable
    | finish hOpen hStatus hEnds => simp [ends, hHeld] at hEnds

theorem completes_held {now : Nat} {claimedBy token : String} {status : CommandStatus} {result : ResultText}
    (hInv : FencedInvariant h)
    (hTrue : (h.backend.completeCommand now id claimedBy token status result).1 = true) :
    h.latestToken id = some token ∧ id ∉ h.completions ∧ ∃ c, h.command id = some c ∧ c.status = .inProgress := by
  rw [ManagementBackend.completeCommand] at hTrue
  split at hTrue
  · cases hTrue
  next c hGet =>
  split at hTrue
  · next hHeld =>
    obtain ⟨hStatus, -, hToken⟩ := hHeld
    refine ⟨?_, hInv.not_completed hGet (not_terminal_of_open (.inr hStatus)), c, hGet, hStatus⟩
    rw [hInv.latest id c hGet hStatus, hToken]
  · cases hTrue

theorem fencedStep (hInv : FencedInvariant h) (hOk : op.KeepsLog h) : FencedStep h op where
  follows _ _ hGet := follows hInv hOk hGet
  completes _ _ _ _ _ _ _ hTrue := completes_held hInv hTrue
  leased _ _ _ hOp hGet hStatus hLease := by
    subst hOp
    exact leased_claim hOk.2 (claim_effects hOk.2) hGet hStatus hLease

theorem frozen_run (hInv : FencedInvariant h) {ops : List CommandOp}
    (hRun : Trace.Allowed CommandOp.apply CommandOp.KeepsLog h ops) (hGet : h.command id = some c)
    (hTerminal : c.status.terminal = true) :
    ∃ c', (Trace.run CommandOp.apply h ops).command id = some c' ∧ c'.status = c.status ∧ c'.result = c.result := by
  induction ops generalizing h c with
  | nil => exact ⟨c, hGet, rfl, rfl⟩
  | cons op ops ih =>
    obtain ⟨hOk, hRest⟩ := hRun
    obtain ⟨c₁, hGet₁, hFollows⟩ := follows hInv hOk hGet
    obtain ⟨hStatus, hResult⟩ := hFollows.frozen hTerminal
    have hInv₁ := hInv.effects hOk.2 (effects hOk.1 hOk.2)
    obtain ⟨c₂, hGet₂, hStatus₂, hResult₂⟩ := ih hInv₁ hRest hGet₁ (hStatus ▸ hTerminal)
    exact ⟨c₂, hGet₂, hStatus₂.trans hStatus, hResult₂.trans hResult⟩

end Step

/-- Of the state it reaches, of every operation that may come next, and of every run from there. -/
structure FencedRun (h : LogHistory) : Prop where
  state : Fenced h
  step : ∀ op : CommandOp, op.KeepsLog h → FencedStep h op
  frozen : ∀ ops, Trace.Allowed CommandOp.apply CommandOp.KeepsLog h ops → ∀ id c, h.command id = some c →
    c.status.terminal = true → ∃ c', (Trace.run CommandOp.apply h ops).command id = some c' ∧
      c'.status = c.status ∧ c'.result = c.result

theorem fenced_completion {ops : List CommandOp} (hRun : Trace.Allowed CommandOp.apply CommandOp.KeepsLog .new ops) :
    FencedRun (Trace.run CommandOp.apply .new ops) := by
  have hInv := FencedInvariant.run hRun
  exact ⟨hInv.toFenced, fun op hOk => fencedStep hInv hOk,
    fun ops' hRun' id c hGet hTerminal => frozen_run hInv hRun' hGet hTerminal⟩

namespace OneCommand

def request : EnqueueRequest := ⟨"r1", "node-a", "update_config", [], "payload", "boot-1", "key-1"⟩

def token (c : Char) (n : Nat) : String := String.ofList (c :: Nat.toDigits 10 n)

def claim (now : Nat) (token : Nat → String) : ClaimRequest := ⟨"node-a", "boot-1", 32, 30, now, .stored, token⟩

theorem claim_keeps {h : LogHistory} {now : Nat} (c : Char)
    (hNew : (h.claims.all fun p => decide (p.2.toList.head? ≠ some c)) = true) :
    (CommandOp.claim (claim now (token c))).KeepsLog h := by
  refine ⟨rfl, fun m n hEq => ?_, fun n p hMem hEq => ?_⟩
  · have hDigits := cons.inj (String.ofList_injective hEq)
    exact Text.toDigits_inj (by decide) hDigits.2
  have hHead := of_decide_eq_true (all_eq_true.mp hNew p hMem)
  rw [hEq] at hHead
  exact hHead (congrArg head? String.toList_ofList)

def completed : List CommandOp :=
  [.enqueue 0 request, .claim (claim 1 (token 'a')), .complete 2 "r1" "node-a" "a0" .done (.plain "ok")]

theorem completed_allowed : Trace.Allowed CommandOp.apply CommandOp.KeepsLog .new completed :=
  ⟨⟨rfl, trivial⟩, claim_keeps 'a' (by decide +kernel), ⟨rfl, rfl⟩, trivial⟩

end OneCommand

theorem fenced_completion_claimed : (Trace.run CommandOp.apply .new OneCommand.completed).completions = ["r1"] ∧
      FencedRun (Trace.run CommandOp.apply .new OneCommand.completed) :=
  ⟨by decide +kernel, fenced_completion OneCommand.completed_allowed⟩

/-- A command that no node has claimed goes from pending to done in one step. -/
theorem pending_closed_unclaimed : Trace.Allowed CommandOp.apply CommandOp.KeepsLog .new
        [.enqueue 0 OneCommand.request, .finalizeStale 1 "r1" "boot-2" (.plain "superseded")] ∧
      ((Trace.run CommandOp.apply .new [.enqueue 0 OneCommand.request]).command "r1").map PendingCommand.status =
        some .pending ∧
      ((Trace.run CommandOp.apply .new [.enqueue 0 OneCommand.request,
        .finalizeStale 1 "r1" "boot-2" (.plain "superseded")]).command "r1").map PendingCommand.status =
        some .done :=
  ⟨⟨⟨rfl, trivial⟩, ⟨rfl, trivial⟩, trivial⟩, by decide +kernel, by decide +kernel⟩

end Turna.StateBackend
