import Mathlib.Logic.Relation
import Turna.Lib.Trace
import Turna.StateBackend.CommandLog

/-! # Runs of the command log

The operations that the control plane and the nodes carry out, and what one of them can do to the
command map and the journal. A history keeps beside the backend what its claims have minted, which
completions took effect and which journal entries an apply wrote.
-/

namespace Turna.StateBackend
open Lib ManagementBackend HashMap List IdempotencyRecord Option

/-- Prepares or confirms nothing for another incarnation; a state without one takes any. -/
def fencedOut (stored incarnation : String) : Bool := !stored.isEmpty && stored != incarnation

namespace ManagementBackend

variable (b : ManagementBackend)

def getRuntimeState (nodeId : String) : Option NodeRuntimeState := b.runtimeStates.get nodeId

def getUserLimitsState (nodeId subjectKey : String) : Option UserLimitsState :=
  b.userLimitsStates.get (nodeId, subjectKey)

def listUserLimitsStates (order : IterOrder) (nodeId : String) : List UserLimitsState :=
  ((order.visit b.userLimitsStates.entries).filter fun e => e.1.1 == nodeId).map Prod.snd

def adoptNodeIncarnation (now : Nat) (nodeId incarnation : String) : ManagementBackend :=
  { b with
    runtimeStates := b.runtimeStates.modify nodeId fun state =>
      { state with
        incarnation
        updatedAtMs := now }
    userLimitsStates := b.userLimitsStates.mapValues fun key state =>
      if key.1 = nodeId then
        { state with
          incarnation
          updatedAtMs := now }
      else state }

def casRuntimeDesired (now : Nat) (nodeId : String) (expectedObservedVersion : Nat) (incarnation : String)
    (desired : RuntimeConfigSnapshot) : Bool × ManagementBackend :=
  match b.runtimeStates.get nodeId with
  | some state =>
    if state.observedVersion ≠ expectedObservedVersion ∨ fencedOut state.incarnation incarnation then (false, b)
    else
      (true,
        { b with
          runtimeStates := b.runtimeStates.insert nodeId
            { state with
              incarnation
              desiredVersion := desired.version
              desiredSnapshot := desired
              status := .applying
              lastError := ""
              updatedAtMs := now } })
  | none =>
    if expectedObservedVersion ≠ 0 ∨ desired.version ≠ 0 then (false, b)
    else
      (true,
        { b with
          runtimeStates := b.runtimeStates.insert nodeId
            { nodeId
              incarnation
              desiredVersion := 0
              observedVersion := 0
              desiredSnapshot := desired
              observedSnapshot := desired
              status := .applying
              lastError := ""
              updatedAtMs := now
              lastApplied := none } })

/-- The journal entry of an applied operation is written with the observed version. -/
def confirmRuntimeObserved (now : Nat) (nodeId : String) (desiredVersion : Nat) (incarnation : String)
    (observed : RuntimeConfigSnapshot) (status : RuntimeStatus) (error : String)
    (applied : Option AppliedOperation) : Bool × ManagementBackend :=
  match b.runtimeStates.get nodeId with
  | none => (false, b)
  | some state =>
    if state.desiredVersion ≠ desiredVersion ∨ state.incarnation ≠ incarnation then (false, b)
    else
      let reported := { state with
        status
        lastError := error
        updatedAtMs := now }
      if status = .observed then
        let b' := { b with
          runtimeStates := b.runtimeStates.insert nodeId
            { reported with
              observedVersion := observed.version
              observedSnapshot := observed
              lastApplied := applied <|> state.lastApplied } }
        (true, applied.elim b' b'.journalAppliedOutcome)
      else (true, { b with runtimeStates := b.runtimeStates.insert nodeId reported })

def casUserLimitsDesired (now : Nat) (nodeId subjectKey : String) (expectedObservedVersion : Nat)
    (incarnation : String) (target : UserLimitTarget) (desired : UserLimitsPatch) :
    Except BackendError Bool × ManagementBackend :=
  match b.userLimitsStates.get (nodeId, subjectKey) with
  | some state =>
    if state.observedVersion ≠ expectedObservedVersion ∨ fencedOut state.incarnation incarnation then
      (.ok false, b)
    else
      match checkedAdd 64 expectedObservedVersion 1 with
      | none => (.error (.other "user limits desired version counter overflow"), b)
      | some nextVersion =>
        (.ok true,
          { b with
            userLimitsStates := b.userLimitsStates.insert (nodeId, subjectKey)
              { state with
                incarnation
                desiredVersion := nextVersion
                desiredPatch := desired
                status := .applying
                lastError := ""
                updatedAtMs := now } })
  | none =>
    if expectedObservedVersion ≠ 0 then (.ok false, b)
    else
      (.ok true,
        { b with
          userLimitsStates := b.userLimitsStates.insert (nodeId, subjectKey)
            { schemaVersion := 1
              nodeId
              subjectKey
              target
              incarnation
              desiredVersion := 1
              observedVersion := 0
              desiredPatch := desired
              observedPatch := .default
              status := .applying
              lastError := ""
              updatedAtMs := now
              lastApplied := none } })

def confirmUserLimitsObserved (now : Nat) (nodeId subjectKey : String) (desiredVersion : Nat)
    (incarnation : String) (observed : UserLimitsPatch) (status : RuntimeStatus) (error : String)
    (applied : Option AppliedOperation) : Bool × ManagementBackend :=
  match b.userLimitsStates.get (nodeId, subjectKey) with
  | none => (false, b)
  | some state =>
    if state.desiredVersion ≠ desiredVersion ∨ state.incarnation ≠ incarnation then (false, b)
    else
      let reported := { state with
        status
        lastError := error
        updatedAtMs := now }
      if status = .observed then
        let b' := { b with
          userLimitsStates := b.userLimitsStates.insert (nodeId, subjectKey)
            { reported with
              observedVersion := desiredVersion
              observedPatch := observed
              lastApplied := applied <|> state.lastApplied } }
        (true, applied.elim b' b'.journalAppliedOutcome)
      else (true, { b with userLimitsStates := b.userLimitsStates.insert (nodeId, subjectKey) reported })

/-! ## What the methods do -/

variable {b} {now : Nat} {nodeId subjectKey incarnation : String}

inductive CasRuntime (b : ManagementBackend) (now : Nat) (nodeId : String) (expected : Nat) (incarnation : String)
    (desired : RuntimeConfigSnapshot) : Bool × ManagementBackend → Prop where
  | insert (hVacant : b.runtimeStates.get nodeId = none) (hExpected : expected = 0) (hVersion : desired.version = 0) :
      CasRuntime b now nodeId expected incarnation desired (true,
        { b with
          runtimeStates := b.runtimeStates.insert nodeId
            ⟨nodeId, incarnation, 0, 0, desired, desired, .applying, "", now, none⟩ })
  | update {state : NodeRuntimeState} (hGet : b.runtimeStates.get nodeId = some state)
      (hObserved : state.observedVersion = expected) (hFence : fencedOut state.incarnation incarnation = false) :
      CasRuntime b now nodeId expected incarnation desired (true,
        { b with
          runtimeStates := b.runtimeStates.insert nodeId
            { state with
              incarnation
              desiredVersion := desired.version
              desiredSnapshot := desired
              status := .applying
              lastError := ""
              updatedAtMs := now } })
  | refuse (hVacant : b.runtimeStates.get nodeId = none → expected = 0 → desired.version ≠ 0)
      (hFence : ∀ state, b.runtimeStates.get nodeId = some state → state.observedVersion = expected →
        fencedOut state.incarnation incarnation = true) :
      CasRuntime b now nodeId expected incarnation desired (false, b)

theorem casRuntime {expected : Nat} {desired : RuntimeConfigSnapshot} :
    CasRuntime b now nodeId expected incarnation desired
      (b.casRuntimeDesired now nodeId expected incarnation desired) := by
  unfold casRuntimeDesired
  split
  · next state hGet =>
    split
    · next hRefuse =>
      refine .refuse (fun hVacant => by rw [hGet] at hVacant; cases hVacant) fun state' hGet' hObserved => ?_
      rw [hGet] at hGet'
      cases hGet'
      exact hRefuse.resolve_left (not_not.mpr hObserved)
    · next hRefuse =>
      rw [not_or, not_not, Bool.not_eq_true] at hRefuse
      exact .update hGet hRefuse.1 hRefuse.2
  · next hVacant =>
    split
    · next hRefuse =>
      refine .refuse (fun _ hExpected => hRefuse.resolve_left (not_not.mpr hExpected)) fun state hGet => ?_
      rw [hVacant] at hGet
      cases hGet
    · next hRefuse =>
      rw [not_or, not_not, not_not] at hRefuse
      exact .insert hVacant hRefuse.1 hRefuse.2

inductive ConfirmRuntime (b : ManagementBackend) (now : Nat) (nodeId : String) (version : Nat) (incarnation : String)
    (observed : RuntimeConfigSnapshot) (status : RuntimeStatus) (error : String) (applied : Option AppliedOperation) :
    Bool × ManagementBackend → Prop where
  | observe {state : NodeRuntimeState} (hGet : b.runtimeStates.get nodeId = some state)
      (hVersion : state.desiredVersion = version) (hIncarnation : state.incarnation = incarnation)
      (hStatus : status = .observed) {b' : ManagementBackend}
      (hAfter : b' =
        { b with
          runtimeStates := b.runtimeStates.insert nodeId
            { state with
              status
              lastError := error
              updatedAtMs := now
              observedVersion := observed.version
              observedSnapshot := observed
              lastApplied := applied <|> state.lastApplied } }) :
      ConfirmRuntime b now nodeId version incarnation observed status error applied
        (true, applied.elim b' b'.journalAppliedOutcome)
  | report {state : NodeRuntimeState} (hGet : b.runtimeStates.get nodeId = some state)
      (hVersion : state.desiredVersion = version) (hIncarnation : state.incarnation = incarnation)
      (hStatus : status ≠ .observed) :
      ConfirmRuntime b now nodeId version incarnation observed status error applied (true,
        { b with
          runtimeStates := b.runtimeStates.insert nodeId
            { state with
              status
              lastError := error
              updatedAtMs := now } })
  | refuse (hFence : ∀ state, b.runtimeStates.get nodeId = some state → state.desiredVersion = version →
      state.incarnation ≠ incarnation) :
      ConfirmRuntime b now nodeId version incarnation observed status error applied (false, b)

theorem confirmRuntime {version : Nat} {observed : RuntimeConfigSnapshot} {status : RuntimeStatus} {error : String}
    {applied : Option AppliedOperation} :
    ConfirmRuntime b now nodeId version incarnation observed status error applied
      (b.confirmRuntimeObserved now nodeId version incarnation observed status error applied) := by
  unfold confirmRuntimeObserved
  split
  · next hVacant =>
    refine .refuse fun state hGet => ?_
    rw [hVacant] at hGet
    cases hGet
  · next state hGet =>
    split
    · next hRefuse =>
      refine .refuse fun state' hGet' hVersion => ?_
      rw [hGet] at hGet'
      cases hGet'
      exact hRefuse.resolve_left (not_not.mpr hVersion)
    · next hRefuse =>
      rw [not_or, not_not, not_not] at hRefuse
      by_cases hStatus : status = .observed
      · simp only [if_pos hStatus]
        exact .observe hGet hRefuse.1 hRefuse.2 hStatus rfl
      · simp only [if_neg hStatus]
        exact .report hGet hRefuse.1 hRefuse.2 hStatus

inductive CasUserLimits (b : ManagementBackend) (now : Nat) (nodeId subjectKey : String) (expected : Nat)
    (incarnation : String) (target : UserLimitTarget) (desired : UserLimitsPatch) :
    Except BackendError Bool × ManagementBackend → Prop where
  | insert (hVacant : b.userLimitsStates.get (nodeId, subjectKey) = none) (hExpected : expected = 0) :
      CasUserLimits b now nodeId subjectKey expected incarnation target desired (.ok true,
        { b with
          userLimitsStates := b.userLimitsStates.insert (nodeId, subjectKey)
            ⟨1, nodeId, subjectKey, target, incarnation, 1, 0, desired, .default, .applying, "", now, none⟩ })
  | update {state : UserLimitsState} (hGet : b.userLimitsStates.get (nodeId, subjectKey) = some state)
      (hObserved : state.observedVersion = expected) (hFence : fencedOut state.incarnation incarnation = false) :
      CasUserLimits b now nodeId subjectKey expected incarnation target desired (.ok true,
        { b with
          userLimitsStates := b.userLimitsStates.insert (nodeId, subjectKey)
            { state with
              incarnation
              desiredVersion := expected + 1
              desiredPatch := desired
              status := .applying
              lastError := ""
              updatedAtMs := now } })
  | overflow (hExpected : uintMax 64 < expected + 1) :
      CasUserLimits b now nodeId subjectKey expected incarnation target desired
        (.error (.other "user limits desired version counter overflow"), b)
  | refuse (hVacant : b.userLimitsStates.get (nodeId, subjectKey) = none → expected ≠ 0)
      (hFence : ∀ state, b.userLimitsStates.get (nodeId, subjectKey) = some state → state.observedVersion = expected →
        fencedOut state.incarnation incarnation = true) :
      CasUserLimits b now nodeId subjectKey expected incarnation target desired (.ok false, b)

theorem casUserLimits {expected : Nat} {target : UserLimitTarget} {desired : UserLimitsPatch} :
    CasUserLimits b now nodeId subjectKey expected incarnation target desired
      (b.casUserLimitsDesired now nodeId subjectKey expected incarnation target desired) := by
  unfold casUserLimitsDesired
  split
  · next state hGet =>
    split
    · next hRefuse =>
      refine .refuse (fun hVacant => by rw [hGet] at hVacant; cases hVacant) fun state' hGet' hObserved => ?_
      rw [hGet] at hGet'
      cases hGet'
      exact hRefuse.resolve_left (not_not.mpr hObserved)
    · next hRefuse =>
      rw [not_or, not_not, Bool.not_eq_true] at hRefuse
      by_cases hRoom : expected + 1 ≤ uintMax 64
      · rw [checkedAdd, if_pos hRoom]
        exact .update hGet hRefuse.1 hRefuse.2
      · rw [checkedAdd, if_neg hRoom]
        exact .overflow (Nat.lt_of_not_le hRoom)
  · next hVacant =>
    split
    · next hExpected =>
      refine .refuse (fun _ => hExpected) fun state hGet => ?_
      rw [hVacant] at hGet
      cases hGet
    · next hExpected => exact .insert hVacant (not_not.mp hExpected)

inductive ConfirmUserLimits (b : ManagementBackend) (now : Nat) (nodeId subjectKey : String) (version : Nat)
    (incarnation : String) (observed : UserLimitsPatch) (status : RuntimeStatus) (error : String)
    (applied : Option AppliedOperation) : Bool × ManagementBackend → Prop where
  | observe {state : UserLimitsState} (hGet : b.userLimitsStates.get (nodeId, subjectKey) = some state)
      (hVersion : state.desiredVersion = version) (hIncarnation : state.incarnation = incarnation)
      (hStatus : status = .observed) {b' : ManagementBackend}
      (hAfter : b' =
        { b with
          userLimitsStates := b.userLimitsStates.insert (nodeId, subjectKey)
            { state with
              status
              lastError := error
              updatedAtMs := now
              observedVersion := version
              observedPatch := observed
              lastApplied := applied <|> state.lastApplied } }) :
      ConfirmUserLimits b now nodeId subjectKey version incarnation observed status error applied
        (true, applied.elim b' b'.journalAppliedOutcome)
  | report {state : UserLimitsState} (hGet : b.userLimitsStates.get (nodeId, subjectKey) = some state)
      (hVersion : state.desiredVersion = version) (hIncarnation : state.incarnation = incarnation)
      (hStatus : status ≠ .observed) :
      ConfirmUserLimits b now nodeId subjectKey version incarnation observed status error applied (true,
        { b with
          userLimitsStates := b.userLimitsStates.insert (nodeId, subjectKey)
            { state with
              status
              lastError := error
              updatedAtMs := now } })
  | refuse (hFence : ∀ state, b.userLimitsStates.get (nodeId, subjectKey) = some state →
      state.desiredVersion = version → state.incarnation ≠ incarnation) :
      ConfirmUserLimits b now nodeId subjectKey version incarnation observed status error applied (false, b)

theorem confirmUserLimits {version : Nat} {observed : UserLimitsPatch} {status : RuntimeStatus} {error : String}
    {applied : Option AppliedOperation} :
    ConfirmUserLimits b now nodeId subjectKey version incarnation observed status error applied
      (b.confirmUserLimitsObserved now nodeId subjectKey version incarnation observed status error applied) := by
  unfold confirmUserLimitsObserved
  split
  · next hVacant =>
    refine .refuse fun state hGet => ?_
    rw [hVacant] at hGet
    cases hGet
  · next state hGet =>
    split
    · next hRefuse =>
      refine .refuse fun state' hGet' hVersion => ?_
      rw [hGet] at hGet'
      cases hGet'
      exact hRefuse.resolve_left (not_not.mpr hVersion)
    · next hRefuse =>
      rw [not_or, not_not, not_not] at hRefuse
      by_cases hStatus : status = .observed
      · simp only [if_pos hStatus]
        exact .observe hGet hRefuse.1 hRefuse.2 hStatus rfl
      · simp only [if_neg hStatus]
        exact .report hGet hRefuse.1 hRefuse.2 hStatus

end ManagementBackend

/-! ## Runs of the command log -/

inductive CommandOp where
  | enqueue (now : Nat) (req : EnqueueRequest)
  | claim (req : ClaimRequest)
  | complete (now : Nat) (requestId claimedBy claimToken : String) (status : CommandStatus) (result : ResultText)
  | finalizeStale (now : Nat) (requestId currentIncarnation : String) (result : ResultText)
  | record (requestId idempotencyKey payloadHash : String) (finalStatus : Option CommandStatus)
      (result : ResultText) (completedAtMs : Nat)
  | adopt (now : Nat) (nodeId incarnation : String)
  | casRuntime (now : Nat) (nodeId : String) (expectedObservedVersion : Nat) (incarnation : String)
      (desired : RuntimeConfigSnapshot)
  | confirmRuntime (now : Nat) (nodeId : String) (desiredVersion : Nat) (incarnation : String)
      (observed : RuntimeConfigSnapshot) (status : RuntimeStatus) (error : String)
      (applied : Option AppliedOperation)
  | casUserLimits (now : Nat) (nodeId subjectKey : String) (expectedObservedVersion : Nat)
      (incarnation : String) (target : UserLimitTarget) (desired : UserLimitsPatch)
  | confirmUserLimits (now : Nat) (nodeId subjectKey : String) (desiredVersion : Nat) (incarnation : String)
      (observed : UserLimitsPatch) (status : RuntimeStatus) (error : String) (applied : Option AppliedOperation)
  | gc (r : CommandLogRetention) (order : IterOrder) (now : Nat)

/-- `claims` are pairs of request id and token, latest first; `byApply` are the keys whose outcome was
written by an apply. -/
structure LogHistory where
  backend : ManagementBackend
  claims : List (String × String)
  completions : List String
  byApply : List String

def ManagementBackend.settled (b : ManagementBackend) (key : String) : Bool :=
  (b.commandIdempotency.get key).any fun r => r.finalStatus.isSome

namespace LogHistory

def new : LogHistory := ⟨.new, [], [], []⟩

variable (h : LogHistory)

def command (id : String) : Option PendingCommand := h.backend.commands.get id

def entry (key : String) : Option IdempotencyRecord := h.backend.commandIdempotency.get key

def latestToken (id : String) : Option String := (h.claims.find? fun p => p.1 == id).map Prod.snd

/-- The backend after an apply's write, and the key if the write settled it. -/
def applied (key : String) (b : ManagementBackend) : LogHistory :=
  { h with
    backend := b
    byApply := if b.settled key && !h.backend.settled key then key :: h.byApply else h.byApply }

end LogHistory

def CommandOp.apply (h : LogHistory) : CommandOp → LogHistory
  | .enqueue now req => { h with backend := (h.backend.enqueueCommand now (req.command now)).2 }
  | .claim req =>
    let r := h.backend.claimCommands req
    { h with
      backend := r.2
      claims := (r.1.map fun c => (c.requestId, c.claimToken)).reverse ++ h.claims }
  | .complete now requestId claimedBy claimToken status result =>
    let r := h.backend.completeCommand now requestId claimedBy claimToken status result
    { h with
      backend := r.2
      completions := if r.1 then requestId :: h.completions else h.completions }
  | .finalizeStale now requestId currentIncarnation result =>
    { h with backend := (h.backend.finalizeStaleCommand now requestId currentIncarnation result).2 }
  | .record requestId idempotencyKey payloadHash finalStatus result completedAtMs =>
    h.applied idempotencyKey
      (h.backend.recordCommandOutcome requestId idempotencyKey payloadHash finalStatus result completedAtMs).2
  | .adopt now nodeId incarnation => { h with backend := h.backend.adoptNodeIncarnation now nodeId incarnation }
  | .casRuntime now nodeId expected incarnation desired =>
    { h with backend := (h.backend.casRuntimeDesired now nodeId expected incarnation desired).2 }
  | .confirmRuntime now nodeId version incarnation observed status error applied =>
    h.applied ((applied.map AppliedOperation.idempotencyKey).getD "")
      (h.backend.confirmRuntimeObserved now nodeId version incarnation observed status error applied).2
  | .casUserLimits now nodeId subjectKey expected incarnation target desired =>
    { h with
      backend := (h.backend.casUserLimitsDesired now nodeId subjectKey expected incarnation target desired).2 }
  | .confirmUserLimits now nodeId subjectKey version incarnation observed status error applied =>
    h.applied ((applied.map AppliedOperation.idempotencyKey).getD "")
      (h.backend.confirmUserLimitsObserved now nodeId subjectKey version incarnation observed status error
        applied).2
  | .gc r order now =>
    let b := (h.backend.gcCommandLog r order now).2
    { h with
      backend := b
      byApply := h.byApply.filter b.settled }

/-- What the callers promise: claim tokens are new, a completion reports success or failure. -/
def CommandOp.CallersKeep (h : LogHistory) : CommandOp → Prop
  | .claim req => Function.Injective req.token ∧ ∀ i, ∀ p ∈ h.claims, p.2 ≠ req.token i
  | .complete _ _ _ _ status _ => status.terminal = true
  | _ => True

def CommandOp.NewRequest (h : LogHistory) : CommandOp → Prop
  | .enqueue _ req => h.command req.requestId = none ∧ ∀ key r, h.entry key = some r → r.requestId ≠ req.requestId
  | _ => True

def CommandOp.isApply : CommandOp → Bool
  | .record _ _ _ _ _ _ => true
  | .confirmRuntime _ _ _ _ _ _ _ _ => true
  | .confirmUserLimits _ _ _ _ _ _ _ _ _ => true
  | _ => false

/-- The journal entry that an apply writes. -/
def CommandOp.outcome : CommandOp → Option (String × ResultText)
  | .record _ key _ _ result _ => some (key, result)
  | .confirmRuntime _ _ _ _ _ .observed _ applied => applied.map fun op => (op.idempotencyKey, op.terminalResult)
  | .confirmUserLimits _ _ _ _ _ _ .observed _ applied => applied.map fun op => (op.idempotencyKey, op.terminalResult)
  | _ => none

def CommandOp.isWork : CommandOp → Bool
  | .enqueue _ _ | .claim _ | .complete _ _ _ _ _ _ | .finalizeStale _ _ _ _ => false
  | _ => true

def CommandOp.isGc : CommandOp → Bool
  | .gc _ _ _ => true
  | _ => false

def CommandOp.KeepsLog (h : LogHistory) (op : CommandOp) : Prop := op.isGc = false ∧ op.CallersKeep h

/-! ## Single commands and records -/

section Pointwise

variable (b : ManagementBackend)

@[simp] theorem mirrorOutcome_commands (key : String) (status : CommandStatus) (result : ResultText) (now : Nat) :
    (b.mirrorOutcome key status result now).commands = b.commands := by
  unfold mirrorOutcome
  split <;> rfl

theorem mirrorOutcome_entry (key : String) (status : CommandStatus) (result : ResultText) (now : Nat) (k : String) :
    (b.mirrorOutcome key status result now).commandIdempotency.get k =
      if k = key ∧ key.isEmpty = false then (b.commandIdempotency.get k).map (.finish status result now)
      else b.commandIdempotency.get k := by
  unfold mirrorOutcome
  split
  · next hEmpty => rw [if_neg (fun h => by rw [hEmpty] at h; cases h.2)]
  next hEmpty =>
  rw [Bool.not_eq_true] at hEmpty
  rw [get_modify]
  by_cases hk : k = key
  · rw [if_pos hk, if_pos ⟨hk, hEmpty⟩, hk]
  · rw [if_neg hk, if_neg (fun h => hk h.1)]

theorem finishCommand_command (key : String) (c : PendingCommand) (status : CommandStatus) (result : ResultText)
    (now : Nat) (id : String) :
    (b.finishCommand key c status result now).commands.get id =
      if id = key then some (c.finish status result now) else b.commands.get id := by
  rw [finishCommand, mirrorOutcome_commands]
  exact get_insert ..

theorem finishCommand_entry (key : String) (c : PendingCommand) (status : CommandStatus) (result : ResultText)
    (now : Nat) (k : String) :
    (b.finishCommand key c status result now).commandIdempotency.get k =
      if k = c.idempotencyKey ∧ c.idempotencyKey.isEmpty = false then
        (b.commandIdempotency.get k).map (.finish status result now)
      else b.commandIdempotency.get k := by
  rw [finishCommand, mirrorOutcome_entry]

end Pointwise

theorem IdempotencyRecord.finish_settled {r : IdempotencyRecord} (hSettled : r.finalStatus.isSome = true)
    (status : CommandStatus) (result : ResultText) (now : Nat) : r.finish status result now = r := by
  unfold finish
  rw [if_neg]
  rw [isNone_iff_eq_none]
  intro hNone
  rw [hNone] at hSettled
  cases hSettled

theorem IdempotencyRecord.finish_open {r : IdempotencyRecord} (hOpen : r.finalStatus = none)
    (status : CommandStatus) (result : ResultText) (now : Nat) :
    r.finish status result now = ⟨r.requestId, r.payloadHash, some status, result, r.createdAtMs, now⟩ := by
  rw [finish, hOpen]
  rfl

/-! ## What an operation does -/

/-- One access of an operation that began in `h₀`: a command it touches is still as it was then. -/
inductive LogEffect (op : CommandOp) (h₀ : LogHistory) : LogHistory → LogHistory → Prop where
  | quiet {h : LogHistory} {b : ManagementBackend} (hCommands : ∀ id, b.commands.get id = h.command id)
      (hJournal : ∀ key, b.commandIdempotency.get key = h.entry key) : LogEffect op h₀ h { h with backend := b }
  | plain {h : LogHistory} {b : ManagementBackend} {now : Nat} {req : EnqueueRequest}
      (hOp : op = .enqueue now req) (hStart : h = h₀) (hKey : req.idempotencyKey.isEmpty = true)
      (hCommands : ∀ id, b.commands.get id =
        if id = req.requestId then some ((h.command req.requestId).getD (req.command now)) else h.command id)
      (hJournal : ∀ key, b.commandIdempotency.get key = h.entry key) : LogEffect op h₀ h { h with backend := b }
  | keyed {h : LogHistory} {b : ManagementBackend} {now : Nat} {req : EnqueueRequest}
      (hOp : op = .enqueue now req) (hStart : h = h₀) (hKey : req.idempotencyKey.isEmpty = false)
      (hVacant : h.entry req.idempotencyKey = none)
      (hCommands : ∀ id, b.commands.get id =
        if id = req.requestId then some ((h.command req.requestId).getD (req.command now)) else h.command id)
      (hJournal : ∀ key, b.commandIdempotency.get key =
        if key = req.idempotencyKey then
          some ⟨req.requestId, (req.command now).payloadHash, none, .plain "", now, 0⟩
        else h.entry key) : LogEffect op h₀ h { h with backend := b }
  | claim {h : LogHistory} {req : ClaimRequest} {id : String} {c : PendingCommand} {n : Nat}
      (hOp : op = .claim req) (hStart : h₀.command id = some c) (hGet : h.command id = some c)
      (hClaimable : c.claimable req.now = true) (hAttempts : c.attempts < maxCommandAttempts)
      (hToken : ∀ p ∈ h.claims, p.2 ≠ req.token n) :
      LogEffect op h₀ h
        { h with
          backend :=
            { h.backend with
              commands := h.backend.commands.insert id (c.claim req.nodeId (req.token n) req.leaseMs req.now) }
          claims := (c.requestId, req.token n) :: h.claims }
  | deadLetter {h : LogHistory} {req : ClaimRequest} {id : String} {c : PendingCommand}
      (hOp : op = .claim req) (hStart : h₀.command id = some c) (hGet : h.command id = some c)
      (hTargets : c.targets req.nodeId req.incarnation = true) (hClaimable : c.claimable req.now = true)
      (hAttempts : maxCommandAttempts ≤ c.attempts) :
      LogEffect op h₀ h { h with backend := h.backend.finishCommand id c .failed .deadLetter req.now }
  | complete {h : LogHistory} {now : Nat} {id claimedBy token : String} {status : CommandStatus}
      {result : ResultText} {c : PendingCommand} (hOp : op = .complete now id claimedBy token status result)
      (hStart : h₀.command id = some c) (hGet : h.command id = some c) (hStatus : c.status = .inProgress)
      (hClaimedBy : c.claimedBy = claimedBy) (hToken : c.claimToken = token) :
      LogEffect op h₀ h
        { h with
          backend := h.backend.finishCommand id c status result now
          completions := id :: h.completions }
  | finalize {h : LogHistory} {now : Nat} {id incarnation : String} {result : ResultText} {c : PendingCommand}
      (hOp : op = .finalizeStale now id incarnation result) (hStart : h₀.command id = some c)
      (hGet : h.command id = some c) (hOpen : c.status.terminal = false) (hStale : c.stale incarnation = true) :
      LogEffect op h₀ h { h with backend := h.backend.finishCommand id c .done result now }
  | journal {h : LogHistory} {b : ManagementBackend} {key : String} {r : IdempotencyRecord}
      {status : CommandStatus} {result : ResultText} {at' : Nat} (hOutcome : op.outcome = some (key, result))
      (hGet : h.entry key = some r) (hOpen : r.finalStatus = none) (hCommands : ∀ id, b.commands.get id = h.command id)
      (hJournal : ∀ k, b.commandIdempotency.get k =
        if k = key then some (r.finish status result at') else h.entry k) :
      LogEffect op h₀ h
        { h with
          backend := b
          byApply := key :: h.byApply }

def ManagementBackend.ClaimRequest.Takes (req : ClaimRequest) (c : PendingCommand) : Prop :=
  c.targets req.nodeId req.incarnation = true ∧ c.claimable req.now = true

/-- What a claim makes of the command it meets. -/
inductive ClaimNext (req : ClaimRequest) (acc : List PendingCommand × ManagementBackend) (id : String)
    (c : PendingCommand) : List PendingCommand × ManagementBackend → Prop where
  | skip (hNot : acc.1.length < req.max → ¬ req.Takes c) : ClaimNext req acc id c acc
  | deadLetter (hTakes : req.Takes c) (hAttempts : maxCommandAttempts ≤ c.attempts) :
      ClaimNext req acc id c (acc.1, acc.2.finishCommand id c .failed .deadLetter req.now)
  | claim (hTakes : req.Takes c) (hAttempts : c.attempts < maxCommandAttempts) :
      ClaimNext req acc id c (acc.1 ++ [c.claim req.nodeId (req.token acc.1.length) req.leaseMs req.now],
        { acc.2 with
          commands := acc.2.commands.insert id (c.claim req.nodeId (req.token acc.1.length) req.leaseMs req.now) })

abbrev LogEffects (op : CommandOp) (h₀ : LogHistory) : LogHistory → LogHistory → Prop :=
  Relation.ReflTransGen (LogEffect op h₀)

section Claim

variable (h₀ : LogHistory) (req : ClaimRequest)

def claiming (acc : List PendingCommand × ManagementBackend) : LogHistory :=
  { h₀ with
    backend := acc.2
    claims := (acc.1.map fun c => (c.requestId, c.claimToken)).reverse ++ h₀.claims }

def TokensDrawn (claimed : List PendingCommand) : Prop :=
  claimed.map PendingCommand.claimToken = (List.range claimed.length).map req.token

variable {h₀ req}

theorem token_new (hKeep : CommandOp.CallersKeep h₀ (.claim req)) {acc : List PendingCommand × ManagementBackend}
    (hDrawn : TokensDrawn req acc.1) : ∀ p ∈ (claiming h₀ acc).claims, p.2 ≠ req.token acc.1.length := by
  intro p hMem hEq
  rcases mem_append.mp hMem with hMem | hMem
  · obtain ⟨c, hClaimed, rfl⟩ := mem_map.mp (mem_reverse.mp hMem)
    have hToken : c.claimToken ∈ acc.1.map PendingCommand.claimToken := mem_map_of_mem hClaimed
    rw [hDrawn] at hToken
    obtain ⟨i, hRange, hDraw⟩ := mem_map.mp hToken
    have hSame : i = acc.1.length := hKeep.1 (hDraw.trans hEq)
    exact absurd (mem_range.mp hRange) (by omega)
  · exact hKeep.2 _ p hMem hEq

theorem claimNext_spec (acc : List PendingCommand × ManagementBackend) (id : String) (c : PendingCommand) :
    ClaimNext req acc id c (claimNext req acc (id, c)) := by
  obtain ⟨claimed, b⟩ := acc
  rw [claimNext]
  split
  · next hFull => exact .skip fun hRoom => absurd hFull (Nat.not_le.mpr hRoom)
  split
  · next hOther => exact .skip fun _ hTakes => by simp [hTakes.1] at hOther
  split
  · next hHeld => exact .skip fun _ hTakes => by simp [hTakes.2] at hHeld
  next hTargets hClaimable =>
  rw [Bool.not_eq_true', Bool.not_eq_false] at hTargets hClaimable
  split
  · next hAttempts => exact .deadLetter ⟨hTargets, hClaimable⟩ hAttempts
  · next hAttempts => exact .claim ⟨hTargets, hClaimable⟩ (Nat.lt_of_not_le hAttempts)

/-- The traversal meets every command as it was when the claim began. -/
theorem claimCommands_rec {b : ManagementBackend}
    (P : List (String × PendingCommand) → List PendingCommand × ManagementBackend → Prop) (hStart : P [] ([], b))
    (hStep : ∀ seen acc id c acc', P seen acc → b.commands.get id = some c → acc.2.commands.get id = some c →
      ClaimNext req acc id c acc' → P (seen ++ [(id, c)]) acc') :
    P (req.order.visit b.commands.entries) (b.claimCommands req) := by
  refine foldl_visit req.order (fun acc => acc.2.commands.get) ?_ P (fun _ => rfl) hStart
    fun seen acc e hSeen hFirst hNow => hStep seen acc e.1 e.2 _ hSeen hFirst hNow (claimNext_spec acc e.1 e.2)
  rintro acc ⟨id, c⟩ id' hNe
  have hSpec := @claimNext_spec req acc id c
  generalize claimNext req acc (id, c) = acc' at hSpec ⊢
  cases hSpec with
  | skip => rfl
  | deadLetter => rw [finishCommand_command, if_neg hNe]
  | claim => exact get_insert_ne _ _ hNe

theorem claim_effects (hKeep : CommandOp.CallersKeep h₀ (.claim req)) :
    LogEffects (.claim req) h₀ h₀ (CommandOp.apply h₀ (.claim req)) := by
  refine (claimCommands_rec (fun _ acc => LogEffects (.claim req) h₀ h₀ (claiming h₀ acc) ∧ TokensDrawn req acc.1)
    ⟨.refl, rfl⟩ ?_).1
  rintro _ ⟨claimed, b⟩ id c _ ⟨hEffects, hDrawn⟩ hStart hGet hNext
  cases hNext with
  | skip => exact ⟨hEffects, hDrawn⟩
  | deadLetter hTakes hAttempts =>
    exact ⟨hEffects.tail (.deadLetter rfl hStart hGet hTakes.1 hTakes.2 hAttempts), hDrawn⟩
  | claim hTakes hAttempts =>
    constructor
    · have hEffect := LogEffect.claim (h := claiming h₀ (claimed, b)) rfl hStart hGet hTakes.2 hAttempts
        (token_new hKeep hDrawn)
      have hClaims : (c.requestId, req.token claimed.length) :: (claiming h₀ (claimed, b)).claims =
          (claiming h₀ (claimed ++ [c.claim req.nodeId (req.token claimed.length) req.leaseMs req.now], b)).claims := by
        simp [claiming, PendingCommand.claim]
      rw [hClaims] at hEffect
      exact hEffects.tail hEffect
    · rw [TokensDrawn] at hDrawn ⊢
      rw [map_append, hDrawn, length_append, length_singleton, range_succ, map_append]
      rfl

end Claim

section Effects

variable {op : CommandOp} {h : LogHistory}

theorem quiet_self : LogEffect op h h h := LogEffect.quiet (fun _ => rfl) (fun _ => rfl)

theorem insertCommand_command (b : ManagementBackend) (cmd : PendingCommand) (id : String) :
    (b.insertCommand cmd).commands.get id =
      if id = cmd.requestId then some ((b.commands.get cmd.requestId).getD cmd) else b.commands.get id :=
  get_orInsert ..

variable {now : Nat} {id incarnation key : String} {result : ResultText} {b : ManagementBackend}
  {applied : Option AppliedOperation}

theorem enqueue_effects {req : EnqueueRequest} :
    LogEffects (.enqueue now req) h h (CommandOp.apply h (.enqueue now req)) := by
  rw [CommandOp.apply, enqueueCommand]
  split
  · next hKey => exact .single (.plain rfl rfl hKey (insertCommand_command _ _) fun _ => rfl)
  next hKey =>
  split
  · split <;> exact .single quiet_self
  next hVacant =>
  refine .single (.keyed rfl rfl (Bool.not_eq_true _ ▸ hKey) hVacant (insertCommand_command _ _) fun key => ?_)
  exact get_insert ..

theorem complete_effects {claimedBy token : String} {status : CommandStatus} :
    LogEffects (.complete now id claimedBy token status result) h h
      (CommandOp.apply h (.complete now id claimedBy token status result)) := by
  rw [CommandOp.apply, completeCommand]
  split
  · exact .single quiet_self
  next c hGet =>
  split
  · next hHeld => exact .single (.complete rfl hGet hGet hHeld.1 hHeld.2.1 hHeld.2.2)
  · exact .single quiet_self

theorem finalize_effects : LogEffects (.finalizeStale now id incarnation result) h h
      (CommandOp.apply h (.finalizeStale now id incarnation result)) := by
  rw [CommandOp.apply, finalizeStaleCommand]
  split
  · exact .single quiet_self
  next c hGet =>
  split
  · next hStale =>
    rw [Bool.and_eq_true, Bool.not_eq_true'] at hStale
    exact .single (.finalize rfl hGet hGet hStale.1 hStale.2)
  · exact .single quiet_self

theorem applied_quiet (hCommands : ∀ id, b.commands.get id = h.command id)
    (hJournal : ∀ k, b.commandIdempotency.get k = h.entry k) : LogEffects op h h (h.applied key b) := by
  have hSettled : b.settled key = h.backend.settled key := congrArg (Option.any _) (hJournal key)
  rw [LogHistory.applied, hSettled, Bool.and_not_self]
  exact .single (.quiet hCommands hJournal)

theorem applied_effects (status : CommandStatus) (at' : Nat) (hOutcome : op.outcome = some (key, result))
    (hCommands : ∀ id, b.commands.get id = h.command id)
    (hJournal : ∀ k, b.commandIdempotency.get k =
      if k = key ∧ key.isEmpty = false then (h.entry k).map (.finish status result at') else h.entry k) :
    LogEffects op h h (h.applied key b) := by
  by_cases hOpen : ∃ r, h.entry key = some r ∧ r.finalStatus = none ∧ key.isEmpty = false
  · obtain ⟨r, hEntry, hFinal, hKey⟩ := hOpen
    have hAt : b.commandIdempotency.get key = some (r.finish status result at') := by
      rw [hJournal, if_pos ⟨rfl, hKey⟩, hEntry, map_some]
    have hAfter : b.settled key = true := by
      rw [ManagementBackend.settled, hAt, finish_open hFinal]
      rfl
    have hBefore : h.backend.settled key = false := by
      have hGet : h.backend.commandIdempotency.get key = some r := hEntry
      rw [ManagementBackend.settled, hGet, any_some, hFinal]
      rfl
    have hOnly (k : String) : b.commandIdempotency.get k =
        if k = key then some (r.finish status result at') else h.entry k := by
      rw [hJournal k]
      by_cases hk : k = key
      · rw [if_pos ⟨hk, hKey⟩, if_pos hk, hk, hEntry, map_some]
      · rw [if_neg (fun h => hk h.1), if_neg hk]
    rw [LogHistory.applied, hAfter, hBefore]
    exact .single (.journal hOutcome hEntry hFinal hCommands hOnly)
  · refine applied_quiet hCommands fun k => ?_
    rw [hJournal k]
    split
    · next hk =>
      obtain ⟨rfl, hKey⟩ := hk
      cases hEntry : h.entry k with
      | none => rfl
      | some r =>
        have hSettled : r.finalStatus.isSome = true := by
          rw [isSome_iff_ne_none]
          exact fun hFinal => hOpen ⟨r, hEntry, hFinal, hKey⟩
        rw [map_some, finish_settled hSettled]
    · rfl

theorem record_effects {hash : String} {status : Option CommandStatus} {at' : Nat} :
    LogEffects (.record id key hash status result at') h h
      (CommandOp.apply h (.record id key hash status result at')) := by
  rw [CommandOp.apply, recordCommandOutcome]
  split
  · exact applied_quiet (fun _ => rfl) fun _ => rfl
  next hKey =>
  split
  · exact applied_quiet (fun _ => rfl) fun _ => rfl
  next r hGet =>
  split
  · exact applied_quiet (fun _ => rfl) fun _ => rfl
  split
  · exact applied_quiet (fun _ => rfl) fun _ => rfl
  split
  · split <;> exact applied_quiet (fun _ => rfl) fun _ => rfl
  next hOpen =>
  rw [Bool.not_eq_true, isSome_eq_false_iff, isNone_iff_eq_none] at hOpen
  refine applied_effects (status.getD .done) at' rfl (fun _ => rfl) fun k => ?_
  rw [get_insert]
  by_cases hk : k = key
  · have hEntry : h.entry k = some r := hk ▸ hGet
    rw [if_pos hk, if_pos ⟨hk, Bool.not_eq_true _ ▸ hKey⟩, hEntry, map_some, finish_open hOpen]
  · rw [if_neg hk, if_neg (fun h => hk h.1)]
    rfl

theorem elim_journal_effects (hOutcome : op.outcome = applied.map fun op => (op.idempotencyKey, op.terminalResult))
    (hCommands : b.commands = h.backend.commands) (hJournal : b.commandIdempotency = h.backend.commandIdempotency) :
    LogEffects op h h (h.applied ((applied.map AppliedOperation.idempotencyKey).getD "")
      (applied.elim b b.journalAppliedOutcome)) := by
  cases applied with
  | none =>
    exact applied_quiet (fun id => congrArg (fun m => m.get id) hCommands)
      fun k => congrArg (fun m => m.get k) hJournal
  | some applied =>
    refine applied_effects .done applied.appliedAtMs hOutcome (fun id => ?_) fun k => ?_
    · rw [elim_some, journalAppliedOutcome, mirrorOutcome_commands, hCommands]
      rfl
    · rw [elim_some, journalAppliedOutcome, mirrorOutcome_entry, hJournal]
      rfl

theorem confirmRuntime_effects {nodeId : String} {version : Nat} {observed : RuntimeConfigSnapshot}
    {status : RuntimeStatus} {error : String} :
    LogEffects (.confirmRuntime now nodeId version incarnation observed status error applied) h h
      (CommandOp.apply h (.confirmRuntime now nodeId version incarnation observed status error applied)) := by
  rw [CommandOp.apply, confirmRuntimeObserved]
  split
  · exact applied_quiet (fun _ => rfl) fun _ => rfl
  split
  · exact applied_quiet (fun _ => rfl) fun _ => rfl
  split
  · next hStatus =>
    subst hStatus
    exact elim_journal_effects rfl rfl rfl
  · exact applied_quiet (fun _ => rfl) fun _ => rfl

theorem confirmUserLimits_effects {nodeId subjectKey : String} {version : Nat}
    {observed : UserLimitsPatch} {status : RuntimeStatus} {error : String} :
    LogEffects (.confirmUserLimits now nodeId subjectKey version incarnation observed status error applied) h h
      (CommandOp.apply h
        (.confirmUserLimits now nodeId subjectKey version incarnation observed status error applied)) := by
  rw [CommandOp.apply, confirmUserLimitsObserved]
  split
  · exact applied_quiet (fun _ => rfl) fun _ => rfl
  split
  · exact applied_quiet (fun _ => rfl) fun _ => rfl
  split
  · next hStatus =>
    subst hStatus
    exact elim_journal_effects rfl rfl rfl
  · exact applied_quiet (fun _ => rfl) fun _ => rfl

theorem CommandOp.effects (hGc : op.isGc = false) (hKeep : op.CallersKeep h) : LogEffects op h h (op.apply h) := by
  cases op with
  | enqueue now req => exact enqueue_effects
  | claim req => exact claim_effects hKeep
  | complete => exact complete_effects
  | finalizeStale => exact finalize_effects
  | record => exact record_effects
  | adopt => exact .single (.quiet (fun _ => rfl) fun _ => rfl)
  | casRuntime =>
    rw [CommandOp.apply, casRuntimeDesired]
    split <;> split <;> exact .single (.quiet (fun _ => rfl) fun _ => rfl)
  | confirmRuntime => exact confirmRuntime_effects
  | casUserLimits =>
    rw [CommandOp.apply, casUserLimitsDesired]
    split
    · split
      · exact .single (.quiet (fun _ => rfl) fun _ => rfl)
      · split <;> exact .single (.quiet (fun _ => rfl) fun _ => rfl)
    · split <;> exact .single (.quiet (fun _ => rfl) fun _ => rfl)
  | confirmUserLimits => exact confirmUserLimits_effects
  | gc => cases hGc

variable {h₀ h' : LogHistory}

def Outcome (outcome : Option (String × ResultText)) (key : String) (before after : Option IdempotencyRecord) : Prop :=
  after = before ∨ ∃ r status result at', before = some r ∧ r.finalStatus = none ∧ outcome = some (key, result) ∧
    after = some (r.finish status result at')

theorem LogEffect.outcome (hWork : op.isWork = true) (hEffect : LogEffect op h₀ h h') (key : String) :
    Outcome op.outcome key (h.entry key) (h'.entry key) := by
  cases hEffect with
  | quiet _ hJournal => exact .inl (hJournal key)
  | claim => exact .inl rfl
  | journal hOutcome hGet hOpen _ hJournal =>
    rw [LogHistory.entry, LogHistory.entry, hJournal]
    split
    · next hKey =>
      subst hKey
      exact .inr ⟨_, _, _, _, hGet, hOpen, hOutcome, rfl⟩
    · exact .inl rfl
  | plain hOp | keyed hOp | deadLetter hOp | complete hOp | finalize hOp =>
    subst hOp
    cases hWork

theorem LogEffects.outcome (hWork : op.isWork = true) (hEffects : LogEffects op h₀ h h') (key : String) :
    Outcome op.outcome key (h.entry key) (h'.entry key) := by
  induction hEffects with
  | refl => exact .inl rfl
  | tail _ hEffect ih =>
    obtain hSame | ⟨r, status, result, at', hBefore, hOpen, hOutcome, hAfter⟩ := hEffect.outcome hWork key
    · rw [hSame]
      exact ih
    obtain hSame | ⟨r', status', result', at'', -, hOpen', -, hAfter'⟩ := ih
    · exact .inr ⟨r, status, result, at', hSame ▸ hBefore, hOpen, hOutcome, hAfter⟩
    · -- A record that is settled is not written again.
      rw [hAfter', finish_open hOpen'] at hBefore
      cases hBefore
      cases hOpen

end Effects

end Turna.StateBackend
