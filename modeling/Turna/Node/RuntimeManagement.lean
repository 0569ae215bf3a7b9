import Turna.Config.Runtime
import Turna.Lib.Prog
import Turna.Session.Publication
import Turna.StateBackend.CommandRun

/-! # Runtime configuration and user limits of a node

The node's apply point for versioned commands: a change is prepared as the desired state, published to
the dataplane and confirmed as the observed state. What a program publishes is passed along. Payloads
are read by functions of the setup.
-/

namespace Turna.Node
open Lib StateBackend Config

inductive BackendCall where
  | adoptNodeIncarnation (nodeId incarnation : String)
  | getRuntimeState (nodeId : String)
  | casRuntimeDesired (nodeId : String) (expectedObservedVersion : Nat) (incarnation : String)
      (desired : RuntimeConfigSnapshot)
  | confirmRuntimeObserved (nodeId : String) (desiredVersion : Nat) (incarnation : String)
      (observed : RuntimeConfigSnapshot) (status : RuntimeStatus) (error : String)
      (applied : Option AppliedOperation)
  | getUserLimitsState (nodeId subjectKey : String)
  | listUserLimitsStates (nodeId : String)
  | casUserLimitsDesired (nodeId subjectKey : String) (expectedObservedVersion : Nat) (incarnation : String)
      (target : UserLimitTarget) (desired : UserLimitsPatch)
  | confirmUserLimitsObserved (nodeId subjectKey : String) (desiredVersion : Nat) (incarnation : String)
      (observed : UserLimitsPatch) (status : RuntimeStatus) (error : String) (applied : Option AppliedOperation)
  | recordCommandOutcome (requestId idempotencyKey payloadHash : String) (finalStatus : Option CommandStatus)
      (result : ResultText) (completedAtMs : Nat)
  | getIdempotency (key : String)
  | claimCommands (nodeId incarnation : String) (max leaseMs : Nat)
  | completeCommand (requestId claimedBy claimToken : String) (status : CommandStatus) (result : ResultText)
  | listStaleCommands (nodeId currentIncarnation : String) (max : Nat)
  | finalizeStaleCommand (requestId currentIncarnation : String) (result : ResultText)

def BackendCall.Value : BackendCall → Type
  | .adoptNodeIncarnation _ _ => Unit
  | .getRuntimeState _ => Option NodeRuntimeState
  | .casRuntimeDesired _ _ _ _ => Bool
  | .confirmRuntimeObserved _ _ _ _ _ _ _ => Bool
  | .getUserLimitsState _ _ => Option UserLimitsState
  | .listUserLimitsStates _ => List UserLimitsState
  | .casUserLimitsDesired _ _ _ _ _ _ => Bool
  | .confirmUserLimitsObserved _ _ _ _ _ _ _ _ => Bool
  | .recordCommandOutcome _ _ _ _ _ _ => Bool
  | .getIdempotency _ => Option IdempotencyRecord
  | .claimCommands _ _ _ _ => List PendingCommand
  | .completeCommand _ _ _ _ _ => Bool
  | .listStaleCommands _ _ _ => List PendingCommand
  | .finalizeStaleCommand _ _ _ => Bool

inductive Fault where
  | none
  | before (error : BackendError)
  | after (error : BackendError)
  deriving DecidableEq, Repr

/-- `usage` and `other` answer the calls that do not go to the backend. -/
structure Surroundings where
  now : Nat
  order : IterOrder
  token : Nat → String
  fault : Fault
  usage : Nat
  other : CommandStatus × String

def BackendCall.op (env : Surroundings) : BackendCall → Option CommandOp
  | .adoptNodeIncarnation nodeId incarnation => some (.adopt env.now nodeId incarnation)
  | .casRuntimeDesired nodeId expected incarnation desired =>
    some (.casRuntime env.now nodeId expected incarnation desired)
  | .confirmRuntimeObserved nodeId version incarnation observed status error applied =>
    some (.confirmRuntime env.now nodeId version incarnation observed status error applied)
  | .casUserLimitsDesired nodeId subjectKey expected incarnation target desired =>
    some (.casUserLimits env.now nodeId subjectKey expected incarnation target desired)
  | .confirmUserLimitsObserved nodeId subjectKey version incarnation observed status error applied =>
    some (.confirmUserLimits env.now nodeId subjectKey version incarnation observed status error applied)
  | .recordCommandOutcome requestId key payloadHash finalStatus result completedAtMs =>
    some (.record requestId key payloadHash finalStatus result completedAtMs)
  | .claimCommands nodeId incarnation max leaseMs =>
    some (.claim ⟨nodeId, incarnation, max, leaseMs, env.now, env.order, env.token⟩)
  | .completeCommand requestId claimedBy claimToken status result =>
    some (.complete env.now requestId claimedBy claimToken status result)
  | .finalizeStaleCommand requestId currentIncarnation result =>
    some (.finalizeStale env.now requestId currentIncarnation result)
  | .getRuntimeState _ => none
  | .getUserLimitsState _ _ => none
  | .listUserLimitsStates _ => none
  | .getIdempotency _ => none
  | .listStaleCommands _ _ _ => none

def BackendCall.answer (env : Surroundings) (b : ManagementBackend) :
    (c : BackendCall) → Except BackendError c.Value
  | .adoptNodeIncarnation _ _ => .ok ()
  | .getRuntimeState nodeId => .ok (b.getRuntimeState nodeId)
  | .casRuntimeDesired nodeId expected incarnation desired =>
    .ok (b.casRuntimeDesired env.now nodeId expected incarnation desired).1
  | .confirmRuntimeObserved nodeId version incarnation observed status error applied =>
    .ok (b.confirmRuntimeObserved env.now nodeId version incarnation observed status error applied).1
  | .getUserLimitsState nodeId subjectKey => .ok (b.getUserLimitsState nodeId subjectKey)
  | .listUserLimitsStates nodeId => .ok (b.listUserLimitsStates env.order nodeId)
  | .casUserLimitsDesired nodeId subjectKey expected incarnation target desired =>
    (b.casUserLimitsDesired env.now nodeId subjectKey expected incarnation target desired).1
  | .confirmUserLimitsObserved nodeId subjectKey version incarnation observed status error applied =>
    .ok (b.confirmUserLimitsObserved env.now nodeId subjectKey version incarnation observed status error applied).1
  | .recordCommandOutcome requestId key payloadHash finalStatus result completedAtMs =>
    (b.recordCommandOutcome requestId key payloadHash finalStatus result completedAtMs).1
  | .getIdempotency key => .ok (b.getIdempotency key)
  | .claimCommands nodeId incarnation max leaseMs =>
    .ok (b.claimCommands ⟨nodeId, incarnation, max, leaseMs, env.now, env.order, env.token⟩).1
  | .completeCommand requestId claimedBy claimToken status result =>
    .ok (b.completeCommand env.now requestId claimedBy claimToken status result).1
  | .listStaleCommands nodeId currentIncarnation max =>
    .ok (b.listStaleCommands env.order nodeId currentIncarnation max)
  | .finalizeStaleCommand requestId currentIncarnation result =>
    .ok (b.finalizeStaleCommand env.now requestId currentIncarnation result).1

inductive NodeCall where
  | backend (c : BackendCall)
  | nowMs
  | usage (target : UserLimitTarget)
  | otherCommand (cmd : PendingCommand)

def NodeCall.Answer : NodeCall → Type
  | .backend c => Except BackendError c.Value
  | .nowMs => Nat
  | .usage _ => Nat
  | .otherCommand _ => CommandStatus × ResultText

def nodeService : Service := ⟨NodeCall, NodeCall.Answer⟩

abbrev Manage (α : Type) := Prog nodeService α

/-! ## The calls as programs -/

namespace Call

def backend (c : BackendCall) : Manage (Except BackendError c.Value) := @Prog.ask nodeService (.backend c)

def adoptNodeIncarnation (nodeId incarnation : String) : Manage (Except BackendError Unit) :=
  backend (.adoptNodeIncarnation nodeId incarnation)

def getRuntimeState (nodeId : String) : Manage (Except BackendError (Option NodeRuntimeState)) :=
  backend (.getRuntimeState nodeId)

def casRuntimeDesired (nodeId : String) (expectedObservedVersion : Nat) (incarnation : String)
    (desired : RuntimeConfigSnapshot) : Manage (Except BackendError Bool) :=
  backend (.casRuntimeDesired nodeId expectedObservedVersion incarnation desired)

def confirmRuntimeObserved (nodeId : String) (desiredVersion : Nat) (incarnation : String)
    (observed : RuntimeConfigSnapshot) (status : RuntimeStatus) (error : String)
    (applied : Option AppliedOperation) : Manage (Except BackendError Bool) :=
  backend (.confirmRuntimeObserved nodeId desiredVersion incarnation observed status error applied)

def getUserLimitsState (nodeId subjectKey : String) : Manage (Except BackendError (Option UserLimitsState)) :=
  backend (.getUserLimitsState nodeId subjectKey)

def listUserLimitsStates (nodeId : String) : Manage (Except BackendError (List UserLimitsState)) :=
  backend (.listUserLimitsStates nodeId)

def casUserLimitsDesired (nodeId subjectKey : String) (expectedObservedVersion : Nat) (incarnation : String)
    (target : UserLimitTarget) (desired : UserLimitsPatch) : Manage (Except BackendError Bool) :=
  backend (.casUserLimitsDesired nodeId subjectKey expectedObservedVersion incarnation target desired)

def confirmUserLimitsObserved (nodeId subjectKey : String) (desiredVersion : Nat) (incarnation : String)
    (observed : UserLimitsPatch) (status : RuntimeStatus) (error : String) (applied : Option AppliedOperation) :
    Manage (Except BackendError Bool) :=
  backend (.confirmUserLimitsObserved nodeId subjectKey desiredVersion incarnation observed status error applied)

def recordCommandOutcome (requestId idempotencyKey payloadHash : String) (finalStatus : CommandStatus)
    (result : ResultText) (completedAtMs : Nat) : Manage (Except BackendError Bool) :=
  backend (.recordCommandOutcome requestId idempotencyKey payloadHash (some finalStatus) result completedAtMs)

def getIdempotency (key : String) : Manage (Except BackendError (Option IdempotencyRecord)) :=
  backend (.getIdempotency key)

def claimCommands (nodeId incarnation : String) (max leaseMs : Nat) :
    Manage (Except BackendError (List PendingCommand)) :=
  backend (.claimCommands nodeId incarnation max leaseMs)

def completeCommand (requestId claimedBy claimToken : String) (status : CommandStatus) (result : ResultText) :
    Manage (Except BackendError Bool) :=
  backend (.completeCommand requestId claimedBy claimToken status result)

def listStaleCommands (nodeId currentIncarnation : String) (max : Nat) :
    Manage (Except BackendError (List PendingCommand)) :=
  backend (.listStaleCommands nodeId currentIncarnation max)

def finalizeStaleCommand (requestId currentIncarnation : String) (result : ResultText) :
    Manage (Except BackendError Bool) :=
  backend (.finalizeStaleCommand requestId currentIncarnation result)

def nowMs : Manage Nat := @Prog.ask nodeService .nowMs

def usage (target : UserLimitTarget) : Manage Nat := @Prog.ask nodeService (.usage target)

def otherCommand (cmd : PendingCommand) : Manage (CommandStatus × ResultText) :=
  @Prog.ask nodeService (.otherCommand cmd)

end Call

/-! ## Runtime configuration and user limits of a node -/

def commandSchemaVersion : Nat := 1

def maxStaleSweep : Nat := 64

def absoluteMaxLifetime : Nat := 3600

def staleSupersededMsg : String :=
  "target incarnation is no longer active; resubmit against the current node incarnation"

/-! ## Conversions and checks -/

def backendSnapshot (snapshot : RuntimeSnapshot) : RuntimeConfigSnapshot where
  schemaVersion := RuntimeConfigSnapshot.schemaVersionSupported
  version := snapshot.version
  maxAllocations := snapshot.limits.maxAllocations
  maxAllocationsPerUser := snapshot.limits.maxPerUser
  maxBytesPerSecPerAllocation := snapshot.limits.maxBytesPerSecPerAllocation

def backendSnapshotFromSession (snapshot : Session.RuntimeLimits) : RuntimeConfigSnapshot where
  schemaVersion := RuntimeConfigSnapshot.schemaVersionSupported
  version := snapshot.version
  maxAllocations := snapshot.maxAllocations
  maxAllocationsPerUser := snapshot.maxPerUser
  maxBytesPerSecPerAllocation := snapshot.maxBytesPerSecPerAllocation

def configSnapshot (snapshot : RuntimeConfigSnapshot) : RuntimeSnapshot where
  version := snapshot.version
  limits := ⟨snapshot.maxBytesPerSecPerAllocation, snapshot.maxAllocationsPerUser, snapshot.maxAllocations⟩

def sessionRuntime (snapshot : RuntimeSnapshot) : Session.RuntimeLimits where
  version := snapshot.version
  maxBytesPerSecPerAllocation := snapshot.limits.maxBytesPerSecPerAllocation
  maxPerUser := snapshot.limits.maxPerUser
  maxAllocations := snapshot.limits.maxAllocations

def validatePersistedSnapshot (snapshot : RuntimeConfigSnapshot) (ctx : RuntimeValidationCtx) :
    Except String Unit :=
  if snapshot.schemaVersion ≠ RuntimeConfigSnapshot.schemaVersionSupported then
    .error s!"unsupported runtime snapshot schema {snapshot.schemaVersion}"
  else
    let errors := (configSnapshot snapshot).limits.validate ctx
    if errors = [] then .ok ()
    else .error ("persisted runtime snapshot is invalid: " ++ "; ".intercalate errors)

def validateTarget (target : UserLimitTarget) : Except String Unit :=
  match target.scope with
  | .global =>
    if !target.realm.isEmpty || !target.tenant.isEmpty || !target.username.isEmpty then
      .error "global limit target must not contain realm, tenant, or username"
    else .ok ()
  | .tenant =>
    if isBlank target.realm || isBlank target.tenant then .error "tenant limit target requires realm and tenant"
    else if !target.username.isEmpty then .error "tenant limit target must not contain username"
    else .ok ()
  | .user =>
    if isBlank target.realm || isBlank target.username then .error "user limit target requires realm and username"
    else .ok ()

def validateLimit (name : String) (limit : Limit) : Except String Unit :=
  match limit.mode with
  | .value =>
    if limit.value = 0 then
      .error (name ++ ": VALUE requires a non-zero value; use UNLIMITED or DISABLED explicitly")
    else .ok ()
  | _ => if limit.value ≠ 0 then .error (name ++ ": non-VALUE mode must carry value=0") else .ok ()

def validateField (name : String) : Option Limit → Except String Unit
  | none => .ok ()
  | some limit => validateLimit name limit

def validatePatch (patch : UserLimitsPatch) : Except String Unit := do
  if patch.isEmpty then throw "user-limits patch is empty"
  validateField "max_allocations" patch.maxAllocations
  validateField "max_bytes_per_sec_per_allocation" patch.maxBytesPerSecPerAllocation
  validateField "max_lifetime_secs" patch.maxLifetimeSecs

/-- One field of `merge_patch`: absent keeps, INHERIT clears. -/
def mergeLimit (current patch : Option Limit) : Option Limit :=
  match patch with
  | none => current
  | some limit => if limit.mode = .inherit then none else some limit

def mergePatch (current patch : UserLimitsPatch) : UserLimitsPatch where
  maxAllocations := mergeLimit current.maxAllocations patch.maxAllocations
  maxBytesPerSecPerAllocation := mergeLimit current.maxBytesPerSecPerAllocation patch.maxBytesPerSecPerAllocation
  maxLifetimeSecs := mergeLimit current.maxLifetimeSecs patch.maxLifetimeSecs

def sessionMode : LimitMode → Session.LimitMode
  | .inherit => .inherit
  | .value => .value
  | .unlimited => .unlimited
  | .disabled => .disabled

def sessionLimit (limit : Limit) : Session.Limit := ⟨sessionMode limit.mode, limit.value⟩

def sessionOverride (patch : UserLimitsPatch) : Session.UserLimitsOverride where
  maxAllocations := patch.maxAllocations.map sessionLimit
  maxBytesPerSecPerAllocation := patch.maxBytesPerSecPerAllocation.map sessionLimit
  maxLifetimeSecs := patch.maxLifetimeSecs.map sessionLimit

def scopeName : UserLimitScope → String
  | .global => "global"
  | .tenant => "tenant"
  | .user => "user"

def snapshotWithPatch (p : Session.Published) (target : UserLimitTarget) (patch : UserLimitsPatch) :
    Except String Session.UserLimitsSnapshot :=
  match p.limitsSnapshotWithOverride (scopeName target.scope) target.realm target.tenant target.username
      (sessionOverride patch) with
  | .ok next => .ok next
  | .error error => .error ("build immutable limits snapshot failed: " ++ error.display)

def usageU32 (usage : Nat) : Nat := min usage (uintMax 32)

def isOverLimit (effective : Session.EffectiveUserLimits) (usage : Nat) : Bool :=
  (effective.allocationsDisabled && decide (0 < usage)) ||
    (decide (0 < effective.maxAllocations) && decide (effective.maxAllocations < usage))

def backendEffective (value : Session.EffectiveUserLimits) : EffectiveUserLimits where
  maxAllocations := min value.maxAllocations (uintMax 32)
  allocationsDisabled := value.allocationsDisabled
  maxBytesPerSecPerAllocation := value.maxBytesPerSecPerAllocation
  bandwidthDisabled := value.bandwidthDisabled
  maxLifetimeSecs := value.maxLifetimeSecs
  lifetimeDisabled := value.lifetimeDisabled
  inheritedFields := value.inheritedFields
  cappedFields := value.cappedFields

/-! ## Results -/

def updateFailure (snapshot : RuntimeConfigSnapshot) (status : TerminalStatus) (error : String)
    (rolledBack : Bool) : UpdateConfigResult where
  requestId := ""
  previousVersion := snapshot.version
  observedVersion := snapshot.version
  changed := false
  applied := snapshot
  terminalStatus := status
  error
  rolledBack

def limitsTerminal (previousVersion observedVersion : Nat) (status : TerminalStatus) (error : String) :
    SetUserLimitsResult where
  requestId := ""
  previousVersion
  observedVersion
  effective := .default
  maxUserAllocationsInScope := 0
  maxUserAllocationsAboveLimit := false
  terminalStatus := status
  error

def limitsFailure (previousVersion observedVersion : Nat) (error : String) : SetUserLimitsResult :=
  limitsTerminal previousVersion observedVersion .failed error

def asUpdateConfig : ResultText → Option UpdateConfigResult
  | .updateConfig result => some result
  | _ => none

def asSetUserLimits : ResultText → Option SetUserLimitsResult
  | .setUserLimits result => some result
  | _ => none

def recordedOutcome (rec : IdempotencyRecord) (payloadHash : String) : Option ResultText :=
  if rec.finalStatus.isSome && rec.payloadHash == payloadHash then some rec.result else none

def alreadyApplied (last : Option AppliedOperation) (pending : PendingCommand) (payloadHash : String) :
    Option ResultText :=
  match last with
  | none => none
  | some op =>
    if op.requestId == pending.requestId ||
        (!pending.idempotencyKey.isEmpty && op.idempotencyKey == pending.idempotencyKey &&
          op.payloadHash == payloadHash) then
      some op.terminalResult
    else none

def confirmationError (fenced persist : String) : Except BackendError Bool → Option String
  | .ok true => none
  | .ok false => some fenced
  | .error error => some (persist ++ error.display)

inductive RecordedOutcome where
  | durable (body : ResultText)
  | retryLater

/-! ## The node -/

structure NodeSetup where
  nodeId : String
  validationCtx : RuntimeValidationCtx
  quota : Option String → Option Session.BandwidthQuota
  parseUpdateConfig : String → Except String UpdateConfigCommand
  parseSetUserLimits : String → Except String SetUserLimitsCommand

structure RuntimeManagement extends NodeSetup where
  incarnation : String

def NodeSetup.effectiveForTarget (node : NodeSetup) (p : Session.Published) (target : UserLimitTarget) :
    Session.EffectiveUserLimits :=
  let effective := fun realm tenant username =>
    Session.effectiveUserLimits p.runtime p.userLimits (node.quota tenant) realm tenant username
  match target.scope with
  | .global => effective "" none ""
  | .tenant => effective target.realm (some target.tenant) ""
  | .user => effective target.realm (if target.tenant.isEmpty then none else some target.tenant) target.username

namespace RuntimeManagement

variable (m : RuntimeManagement)

def checkCommandTarget (pending : PendingCommand) : Except String Unit :=
  if pending.targetNodeId ≠ m.nodeId then
    .error ("command target " ++ pending.targetNodeId ++ " does not match local node " ++ m.nodeId)
  else if pending.targetIncarnation.isEmpty then .error "versioned command is missing target incarnation"
  else if pending.targetIncarnation ≠ m.incarnation then
    .error ("stale command incarnation " ++ pending.targetIncarnation ++ "; local incarnation is " ++ m.incarnation)
  else .ok ()

/-! ## Restore -/

/-- The first start of a node: the boot configuration becomes its observed state. -/
def initializeRuntime (bootstrap : RuntimeSnapshot) : Manage (Except String Unit) := do
  let persisted := backendSnapshot bootstrap
  match ← Call.casRuntimeDesired m.nodeId 0 m.incarnation persisted with
  | .error error => pure (.error ("initialize runtime desired state failed: " ++ error.display))
  | .ok false => pure (.error "initialize runtime desired state lost CAS")
  | .ok true =>
    match ← Call.confirmRuntimeObserved m.nodeId persisted.version m.incarnation persisted .observed "" none with
    | .error error => pure (.error ("initialize runtime observed state failed: " ++ error.display))
    | .ok false => pure (.error "initialize runtime observed state was fenced")
    | .ok true => pure (.ok ())

/-- The last confirmed snapshot is published; an interrupted change is reported as failed. -/
def restoreRuntime (state : NodeRuntimeState) (p : Session.Published) :
    Manage (Except String Session.Published) := do
  match validatePersistedSnapshot state.observedSnapshot m.validationCtx with
  | .error error => pure (.error error)
  | .ok () =>
    if state.observedSnapshot.version ≠ state.observedVersion then
      pure (.error (s!"runtime state version mismatch: record={state.observedVersion} " ++
        s!"snapshot={state.observedSnapshot.version}"))
    else
      let p := p.publishRuntime (sessionRuntime (configSnapshot state.observedSnapshot))
      if state.status ≠ .observed ∨ state.desiredVersion ≠ state.observedVersion ∨
          state.desiredSnapshot ≠ state.observedSnapshot then
        let _ ← Call.confirmRuntimeObserved m.nodeId state.desiredVersion m.incarnation state.observedSnapshot .failed
          ("startup restored last confirmed observed snapshot; " ++ "interrupted desired state was not published")
          none
        pure (.ok p)
      else pure (.ok p)

def restoredLimits (state : UserLimitsState) (p : Session.Published) : Except String Session.Published := do
  if state.schemaVersion ≠ commandSchemaVersion then
    throw (s!"unsupported user-limits state schema {state.schemaVersion} for " ++ state.subjectKey)
  validateTarget state.target
  if !state.observedPatch.isEmpty then validatePatch state.observedPatch
  let next ← snapshotWithPatch p state.target state.observedPatch
  match p.publishUserLimits next with
  | (.error error, _) => throw error.display
  | (.ok (), p) => pure p

def restoreEach (p : Session.Published) : List UserLimitsState → Manage (Except String Session.Published)
  | [] => pure (.ok p)
  | state :: states =>
    match restoredLimits state p with
    | .error error => pure (.error error)
    | .ok p =>
      if state.status ≠ .observed ∨ state.desiredVersion ≠ state.observedVersion then do
        let _ ← Call.confirmUserLimitsObserved m.nodeId state.subjectKey state.desiredVersion m.incarnation
          state.observedPatch .failed
          ("startup restored last confirmed observed limits; " ++ "interrupted desired state was not published") none
        restoreEach p states
      else restoreEach p states

def restoreLimits (p : Session.Published) : Manage (Except String Session.Published) := do
  match ← Call.listUserLimitsStates m.nodeId with
  | .error error => pure (.error ("load user limits state failed: " ++ error.display))
  | .ok states => m.restoreEach p states

def restoreAdopted (bootstrap : RuntimeSnapshot) (p : Session.Published) :
    Manage (Except String Session.Published) := do
  match ← Call.getRuntimeState m.nodeId with
  | .error error => pure (.error ("load runtime state failed: " ++ error.display))
  | .ok none =>
    match ← m.initializeRuntime bootstrap with
    | .error error => pure (.error error)
    | .ok () => m.restoreLimits (p.publishRuntime (sessionRuntime bootstrap))
  | .ok (some state) =>
    match ← m.restoreRuntime state p with
    | .error error => pure (.error error)
    | .ok p => m.restoreLimits p

def restore (bootstrap : RuntimeSnapshot) (p : Session.Published) : Manage (Except String Session.Published) := do
  match ← Call.adoptNodeIncarnation m.nodeId m.incarnation with
  | .error error => pure (.error ("adopt node incarnation failed: " ++ error.display))
  | .ok () => m.restoreAdopted bootstrap p

/-! ## Replay and record -/

def durableReplay {T : Type} (decode : ResultText → Option T) (pending : PendingCommand) (payloadHash : String) :
    Manage (Option T) := do
  if pending.idempotencyKey.isEmpty then pure none
  else
    match ← Call.getIdempotency pending.idempotencyKey with
    | .ok (some rec) => pure ((recordedOutcome rec payloadHash).bind decode)
    | _ => pure none

/-- The slot of the last applied operation, and the journal when it does not match. -/
def storedTerminalResult (last : Option AppliedOperation) (pending : PendingCommand) (payloadHash : String) :
    Manage (Option ResultText) := do
  match alreadyApplied last pending payloadHash with
  | some stored => pure (some stored)
  | none =>
    if pending.idempotencyKey.isEmpty then pure none
    else
      match ← Call.getIdempotency pending.idempotencyKey with
      | .ok (some rec) => pure (recordedOutcome rec payloadHash)
      | _ => pure none

/-- An outcome other than `applied` is journaled before the command is completed. -/
def recordTerminalOutcome (pending : PendingCommand) (businessOutcome : TerminalStatus)
    (transportStatus : CommandStatus) (freshBody : ResultText) : Manage RecordedOutcome := do
  if businessOutcome = .applied ∨ pending.idempotencyKey.isEmpty then pure (.durable freshBody)
  else
    let now ← Call.nowMs
    match ← Call.recordCommandOutcome pending.requestId pending.idempotencyKey pending.payloadHash transportStatus
        freshBody now with
    | .ok _ => pure (.durable freshBody)
    | .error _ =>
      match ← Call.getIdempotency pending.idempotencyKey with
      | .ok (some rec) =>
        match recordedOutcome rec pending.payloadHash with
        | some body => pure (.durable body)
        | none => pure .retryLater
      | .ok none => pure .retryLater
      | .error _ => pure .retryLater

/-! ## Update of the configuration -/

def appliedOperation (pending : PendingCommand) (version : Nat) (result : ResultText) (now : Nat) :
    AppliedOperation where
  requestId := pending.requestId
  op := pending.op
  idempotencyKey := pending.idempotencyKey
  payloadHash := pending.payloadHash
  appliedVersion := version
  terminalResult := result
  appliedAtMs := now

def updateSuccess (pending : PendingCommand) (previousVersion : Nat) (desired : RuntimeConfigSnapshot) :
    UpdateConfigResult where
  requestId := pending.requestId
  previousVersion
  observedVersion := desired.version
  changed := true
  applied := desired
  terminalStatus := .applied
  error := ""
  rolledBack := false

/-- Prepare, publish, confirm; roll back when the confirmation is not given. -/
def commitUpdate (p : Session.Published) (pending : PendingCommand) (snapshot : RuntimeSnapshot) :
    Manage (UpdateConfigResult × Session.Published) := do
  let previous := p.runtime
  let previousBackend := backendSnapshotFromSession previous
  let desired := backendSnapshot snapshot
  match ← Call.casRuntimeDesired m.nodeId previous.version m.incarnation desired with
  | .error error =>
    pure (updateFailure previousBackend .failed ("persist desired runtime state failed: " ++ error.display) false, p)
  | .ok false => pure (updateFailure previousBackend .conflict "runtime desired-state CAS conflict" false, p)
  | .ok true =>
    let published := p.publishRuntime (sessionRuntime snapshot)
    let success := updateSuccess pending previous.version desired
    let now ← Call.nowMs
    let applied := appliedOperation pending desired.version (.updateConfig success) now
    let answer ← Call.confirmRuntimeObserved m.nodeId desired.version m.incarnation desired .observed "" (some applied)
    match confirmationError "runtime observed confirmation was fenced" "persist observed runtime state failed: "
        answer with
    | none => pure (success, published)
    | some error =>
      let _ ← Call.confirmRuntimeObserved m.nodeId desired.version m.incarnation previousBackend .failed error none
      pure (updateFailure previousBackend .failed error true, published.publishRuntime previous)

def evaluateUpdate (p : Session.Published) (pending : PendingCommand) (command : UpdateConfigCommand) :
    Manage (UpdateConfigResult × Session.Published) := do
  let previousBackend := backendSnapshotFromSession p.runtime
  let configCurrent : RuntimeSnapshot :=
    ⟨p.runtime.version, ⟨p.runtime.maxBytesPerSecPerAllocation, p.runtime.maxPerUser, p.runtime.maxAllocations⟩⟩
  let patch : DynamicLimitsPatch :=
    ⟨command.maxBytesPerSecPerAllocation, command.maxAllocationsPerUser, command.maxAllocations⟩
  if patch.isEmpty then pure (updateFailure previousBackend .failed "update_config patch is empty" false, p)
  else
    match configCurrent.apply patch command.expectedVersion m.validationCtx with
    | .error (.versionMismatch expected actual) =>
      pure (updateFailure previousBackend .conflict s!"version mismatch: expected {expected}, observed {actual}" false,
        p)
    | .error error => pure (updateFailure previousBackend .failed error.display false, p)
    | .ok applied =>
      if !applied.changed then
        pure (
          { requestId := ""
            previousVersion := p.runtime.version
            observedVersion := p.runtime.version
            changed := false
            applied := previousBackend
            terminalStatus := .noOp
            error := ""
            rolledBack := false }, p)
      else m.commitUpdate p pending applied.snapshot

def applyUpdateConfigInner (p : Session.Published) (pending : PendingCommand) :
    Manage (UpdateConfigResult × Session.Published) := do
  match ← durableReplay asUpdateConfig pending pending.payloadHash with
  | some stored => pure (stored, p)
  | none =>
    let current := backendSnapshotFromSession p.runtime
    match m.parseUpdateConfig pending.payloadJson with
    | .error error => pure (updateFailure current .failed ("invalid update_config payload: " ++ error) false, p)
    | .ok command =>
      if command.schemaVersion ≠ commandSchemaVersion then
        pure (updateFailure current .failed s!"unsupported update_config payload schema {command.schemaVersion}" false,
          p)
      else
        match m.checkCommandTarget pending with
        | .error error => pure (updateFailure current .failed error false, p)
        | .ok () =>
          match ← Call.getRuntimeState m.nodeId with
          | .error error =>
            pure (updateFailure current .failed
              ("load runtime state for idempotency check failed: " ++ error.display) false, p)
          | .ok state =>
            match ← storedTerminalResult (state.bind NodeRuntimeState.lastApplied) pending pending.payloadHash with
            | none => m.evaluateUpdate p pending command
            | some stored =>
              match asUpdateConfig stored with
              | some result => pure (result, p)
              | none => m.evaluateUpdate p pending command

/-- `none` leaves the command to be claimed again. -/
def applyUpdateConfig (p : Session.Published) (pending : PendingCommand) :
    Manage (Option (CommandStatus × ResultText) × Session.Published) := do
  let (result, p) ← m.applyUpdateConfigInner p pending
  match ← recordTerminalOutcome pending result.terminalStatus .done (.updateConfig result) with
  | .durable body => pure (some (.done, body), p)
  | .retryLater => pure (none, p)

/-! ## User limits -/

def limitsReport (p : Session.Published) (target : UserLimitTarget) (requestId : String)
    (previousVersion observedVersion : Nat) (status : TerminalStatus) (error : String) :
    Manage SetUserLimitsResult := do
  let effective := m.effectiveForTarget p target
  let used ← Call.usage target
  pure
    { requestId
      previousVersion
      observedVersion
      effective := backendEffective effective
      maxUserAllocationsInScope := usageU32 used
      maxUserAllocationsAboveLimit := isOverLimit effective used
      terminalStatus := status
      error }

/-- Publish and confirm a prepared patch; roll back when the confirmation is not given. -/
def confirmLimits (p : Session.Published) (pending : PendingCommand) (target : UserLimitTarget)
    (previousVersion : Nat) (previousPatch candidate : UserLimitsPatch) :
    Manage (SetUserLimitsResult × Session.Published) := do
  let subjectKey := target.subjectKey
  let desiredVersion := previousVersion + 1
  match snapshotWithPatch p target candidate with
  | .error error =>
    let _ ← Call.confirmUserLimitsObserved m.nodeId subjectKey desiredVersion m.incarnation previousPatch .failed error
      none
    pure (limitsFailure previousVersion previousVersion error, p)
  | .ok nextCache =>
    match p.publishUserLimits nextCache with
    | (.error error, _) =>
      pure (limitsFailure previousVersion previousVersion ("publish user limits failed: " ++ error.display), p)
    | (.ok (), published) =>
      let success ← m.limitsReport published target pending.requestId previousVersion desiredVersion .applied ""
      let now ← Call.nowMs
      let applied := appliedOperation pending desiredVersion (.setUserLimits success) now
      let answer ← Call.confirmUserLimitsObserved m.nodeId subjectKey desiredVersion m.incarnation candidate .observed ""
        (some applied)
      match confirmationError "user-limits observed confirmation was fenced" "persist observed user limits failed: "
          answer with
      | none => pure (success, published)
      | some error =>
        let published := (published.publishUserLimits p.userLimits).2
        let _ ← Call.confirmUserLimitsObserved m.nodeId subjectKey desiredVersion m.incarnation previousPatch .failed
          error none
        pure (limitsFailure previousVersion previousVersion error, published)

def evaluateLimits (p : Session.Published) (pending : PendingCommand) (command : SetUserLimitsCommand)
    (currentState : Option UserLimitsState) : Manage (SetUserLimitsResult × Session.Published) := do
  let target := command.target
  let previousVersion := (currentState.map UserLimitsState.observedVersion).getD 0
  if command.expectedVersion ≠ previousVersion then
    let result ← m.limitsReport p target "" previousVersion previousVersion .conflict
      s!"version mismatch: expected {command.expectedVersion}, observed {previousVersion}"
    pure (result, p)
  else
    let previousPatch := (currentState.map UserLimitsState.observedPatch).getD .default
    let candidate := mergePatch previousPatch command.patch
    if candidate = previousPatch then
      let result ← m.limitsReport p target "" previousVersion previousVersion .noOp ""
      pure (result, p)
    else if 2 ^ 64 ≤ previousVersion + 1 then
      pure (limitsFailure previousVersion previousVersion "user limits version counter overflow", p)
    else
      match ← Call.casUserLimitsDesired m.nodeId target.subjectKey previousVersion m.incarnation target candidate with
      | .error error =>
        pure (limitsFailure previousVersion previousVersion ("persist desired user limits failed: " ++ error.display),
          p)
      | .ok false =>
        let result ← m.limitsReport p target "" previousVersion previousVersion .conflict
          "user-limits desired-state CAS conflict"
        pure (result, p)
      | .ok true => m.confirmLimits p pending target previousVersion previousPatch candidate

/-- The checks of a `set_user_limits` payload that need no state. -/
def checkLimitsCommand (pending : PendingCommand) (command : SetUserLimitsCommand) : Except String Unit := do
  if command.schemaVersion ≠ commandSchemaVersion then
    throw s!"unsupported set_user_limits payload schema {command.schemaVersion}"
  m.checkCommandTarget pending
  validateTarget command.target
  validatePatch command.patch
  match command.patch.maxLifetimeSecs with
  | none => pure ()
  | some limit =>
    if limit.mode = .value ∧ absoluteMaxLifetime < limit.value then
      throw (s!"max_lifetime_secs {limit.value} exceeds the absolute lifetime ceiling " ++
        s!"{absoluteMaxLifetime}")

def applySetUserLimitsInner (p : Session.Published) (pending : PendingCommand) :
    Manage (SetUserLimitsResult × Session.Published) := do
  match ← durableReplay asSetUserLimits pending pending.payloadHash with
  | some stored => pure (stored, p)
  | none =>
    match m.parseSetUserLimits pending.payloadJson with
    | .error error => pure (limitsFailure 0 0 ("invalid set_user_limits payload: " ++ error), p)
    | .ok command =>
      match m.checkLimitsCommand pending command with
      | .error error => pure (limitsFailure 0 0 error, p)
      | .ok () =>
        match ← Call.getUserLimitsState m.nodeId command.target.subjectKey with
        | .error error => pure (limitsFailure 0 0 ("load current user limits failed: " ++ error.display), p)
        | .ok state =>
          match ← storedTerminalResult (state.bind UserLimitsState.lastApplied) pending pending.payloadHash with
          | none => m.evaluateLimits p pending command state
          | some stored =>
            match asSetUserLimits stored with
            | some result => pure (result, p)
            | none => m.evaluateLimits p pending command state

def applySetUserLimits (p : Session.Published) (pending : PendingCommand) :
    Manage (Option (CommandStatus × ResultText) × Session.Published) := do
  let (result, p) ← m.applySetUserLimitsInner p pending
  match ← recordTerminalOutcome pending result.terminalStatus .done (.setUserLimits result) with
  | .durable body => pure (some (.done, body), p)
  | .retryLater => pure (none, p)

/-! ## Stale commands -/

def staleUpdateConfigResult (p : Session.Published) (pending : PendingCommand) : Manage (Option ResultText) := do
  match ← Call.getRuntimeState m.nodeId with
  | .error _ => pure none
  | .ok state =>
    match ← storedTerminalResult (state.bind NodeRuntimeState.lastApplied) pending pending.payloadHash with
    | some stored => pure (some stored)
    | none =>
      pure (some (.updateConfig
        (updateFailure (backendSnapshotFromSession p.runtime) .superseded staleSupersededMsg false)))

def staleSetUserLimitsResult (pending : PendingCommand) : Manage (Option ResultText) := do
  match m.parseSetUserLimits pending.payloadJson with
  | .error _ => pure (some (.setUserLimits (limitsTerminal 0 0 .superseded staleSupersededMsg)))
  | .ok command =>
    match ← Call.getUserLimitsState m.nodeId command.target.subjectKey with
    | .error _ => pure none
    | .ok state =>
      match ← storedTerminalResult (state.bind UserLimitsState.lastApplied) pending pending.payloadHash with
      | some stored => pure (some stored)
      | none =>
        let observed := (state.map UserLimitsState.observedVersion).getD 0
        pure (some (.setUserLimits (limitsTerminal observed observed .superseded staleSupersededMsg)))

def staleResult (p : Session.Published) (cmd : PendingCommand) : Manage (Option ResultText) :=
  match cmd.op with
  | "update_config" => m.staleUpdateConfigResult p cmd
  | "set_user_limits" => m.staleSetUserLimitsResult cmd
  | _ => pure none

def sweepEach (p : Session.Published) : List PendingCommand → Manage Nat
  | [] => pure 0
  | cmd :: rest => do
    match ← m.staleResult p cmd with
    | none => sweepEach p rest
    | some result =>
      match ← Call.finalizeStaleCommand cmd.requestId m.incarnation result with
      | .ok true => return (← sweepEach p rest) + 1
      | _ => sweepEach p rest

def sweepStaleCommands (p : Session.Published) : Manage Nat := do
  match ← Call.listStaleCommands m.nodeId m.incarnation maxStaleSweep with
  | .error _ => pure 0
  | .ok stale => m.sweepEach p stale

/-! ## The command loop -/

def commandLeaseMs : Nat := 30000

def applyCommand (p : Session.Published) (cmd : PendingCommand) :
    Manage (Option (CommandStatus × ResultText) × Session.Published) :=
  match cmd.op with
  | "update_config" => m.applyUpdateConfig p cmd
  | "set_user_limits" => m.applySetUserLimits p cmd
  | _ => do
    let outcome ← Call.otherCommand cmd
    pure (some outcome, p)

/-- A claimed command is applied and completed; one to retry stays claimed until its lease runs out. -/
def applyClaimed (p : Session.Published) : List PendingCommand → Manage Session.Published
  | [] => pure p
  | cmd :: rest => do
    match ← m.applyCommand p cmd with
    | (none, p) => applyClaimed p rest
    | (some (status, result), p) =>
      let _ ← Call.completeCommand cmd.requestId m.nodeId cmd.claimToken status result
      applyClaimed p rest

def commandTick (p : Session.Published) : Manage Session.Published := do
  match ← Call.claimCommands m.nodeId m.incarnation 32 commandLeaseMs with
  | .error _ => pure p
  | .ok claimed =>
    let p ← m.applyClaimed p claimed
    let _ ← m.sweepStaleCommands p
    pure p

end RuntimeManagement

end Turna.Node
