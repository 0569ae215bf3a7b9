import Turna.Lib.HashMap
import Turna.Lib.Text

/-! # The command log and the idempotency journal

The methods of the in-memory backend on its command map and its journal. Every method is one atomic
step. A traversal takes the order in which it meets the commands, and a method that reads the clock
takes its reading.
-/

namespace Turna.StateBackend
open Lib

section

inductive BackendError where
  | connection (text : String)
  | notFound (text : String)
  | conflict (text : String)
  | timeout
  | serialization (text : String)
  | other (text : String)
  deriving DecidableEq, Repr

def BackendError.display : BackendError → String
  | .connection text => "connection: " ++ text
  | .notFound text => "not found: " ++ text
  | .conflict text => "conflict: " ++ text
  | .timeout => "timeout"
  | .serialization text => "serialization: " ++ text
  | .other text => "backend: " ++ text

structure StoredChannel where
  number : UInt16
  peerAddr : String
  expiresAtMs : Nat
  deriving DecidableEq, Repr

structure StoredAllocation where
  id : String
  relayPort : UInt16
  clientAddr : String
  relayAddr : String
  userId : String
  realm : String
  nodeId : String
  allocationId : String
  migrationEpoch : UInt64
  createdAtMs : Nat
  expiresAtMs : Nat
  bytesIn : Nat
  bytesOut : Nat
  packetsIn : Nat
  packetsOut : Nat
  permissions : List String
  channels : List StoredChannel
  deriving DecidableEq, Repr

structure StoredAllocation.Equiv (a b : StoredAllocation) : Prop where
  scalars : { a with permissions := [], channels := [] } = { b with permissions := [], channels := [] }
  permissions : a.permissions.Perm b.permissions
  channels : a.channels.Perm b.channels

theorem StoredAllocation.Equiv.refl (a : StoredAllocation) : a.Equiv a := ⟨rfl, .refl _, .refl _⟩

theorem StoredAllocation.Equiv.symm {a b : StoredAllocation} (h : a.Equiv b) : b.Equiv a :=
  ⟨h.scalars.symm, h.permissions.symm, h.channels.symm⟩

theorem StoredAllocation.Equiv.trans {a b c : StoredAllocation} (h : a.Equiv b) (h' : b.Equiv c) : a.Equiv c :=
  ⟨h.scalars.trans h'.scalars, h.permissions.trans h'.permissions, h.channels.trans h'.channels⟩

def RowEquiv : Option StoredAllocation → Option StoredAllocation → Prop :=
  Option.Rel StoredAllocation.Equiv

namespace RowEquiv

theorem refl (row : Option StoredAllocation) : RowEquiv row row := by
  cases row with
  | none => exact .none
  | some a => exact .some (.refl a)

variable {r r' : Option StoredAllocation}

theorem symm (h : RowEquiv r r') : RowEquiv r' r := by
  cases h with
  | none => exact .none
  | some h => exact .some h.symm

theorem trans {r'' : Option StoredAllocation} (h : RowEquiv r r') (h' : RowEquiv r' r'') : RowEquiv r r'' := by
  cases h with
  | none => exact h'
  | some h =>
    cases h' with
    | some h' => exact .some (h.trans h')

theorem isSome_eq (h : RowEquiv r r') : r.isSome = r'.isSome := by
  cases h <;> rfl

theorem map {f g : StoredAllocation → StoredAllocation} (hf : ∀ a b, a.Equiv b → (f a).Equiv (g b))
    (h : RowEquiv r r') : RowEquiv (r.map f) (r'.map g) := by
  cases h with
  | none => exact .none
  | some h => exact .some (hf _ _ h)

end RowEquiv

structure InMemoryBackend where
  allocations : HashMap UInt16 StoredAllocation
  keyed : ∀ port row, allocations.get port = some row → row.relayPort = port

namespace InMemoryBackend

def new : InMemoryBackend where
  allocations := .empty
  keyed _ _ h := by cases h

def getAllocation (b : InMemoryBackend) (relayPort : UInt16) : Option StoredAllocation :=
  b.allocations.get relayPort

def storeAllocation (b : InMemoryBackend) (alloc : StoredAllocation) : InMemoryBackend where
  allocations := b.allocations.insert alloc.relayPort alloc
  keyed port row h := by
    obtain ⟨rfl, rfl⟩ | hOld := HashMap.get_insert_cases h
    · rfl
    · exact b.keyed port row hOld

def removeAllocation (b : InMemoryBackend) (relayPort : UInt16) : InMemoryBackend where
  allocations := b.allocations.remove relayPort
  keyed port row h := by
    exact b.keyed port row (HashMap.get_of_get_remove h)

def Equiv (b b' : InMemoryBackend) : Prop :=
  ∀ port, RowEquiv (b.getAllocation port) (b'.getAllocation port)

theorem getAllocation_store (b : InMemoryBackend) (row : StoredAllocation) (port : UInt16) :
    (b.storeAllocation row).getAllocation port =
      if port = row.relayPort then some row else b.getAllocation port :=
  HashMap.get_insert b.allocations row.relayPort port row

theorem getAllocation_remove (b : InMemoryBackend) (relayPort port : UInt16) :
    (b.removeAllocation relayPort).getAllocation port =
      if port = relayPort then none else b.getAllocation port :=
  HashMap.get_remove b.allocations relayPort port

end InMemoryBackend

structure CallFaults where
  get : Option BackendError
  store : Option BackendError
  remove : Option BackendError

def CallFaults.none : CallFaults := ⟨.none, .none, .none⟩

def call {α : Type} (fault : Option BackendError) (result : α) : Except BackendError α :=
  match fault with
  | some error => .error error
  | none => .ok result

/-! ## Records of the management plane -/

def uintMax (width : Nat) : Nat := 2 ^ width - 1

def saturatingAdd (width a b : Nat) : Nat := min (a + b) (uintMax width)

def saturatingMul (width a b : Nat) : Nat := min (a * b) (uintMax width)

def checkedAdd (width a b : Nat) : Option Nat := if a + b ≤ uintMax width then some (a + b) else none

/-! ## Runtime limits -/

structure RuntimeConfigSnapshot where
  schemaVersion : Nat
  version : Nat
  maxAllocations : Nat
  maxAllocationsPerUser : Nat
  maxBytesPerSecPerAllocation : Nat
  deriving DecidableEq, Repr

def RuntimeConfigSnapshot.schemaVersionSupported : Nat := 1

inductive LimitMode where
  | inherit
  | value
  | unlimited
  | disabled
  deriving DecidableEq, Repr

/-- One limit of a patch (`LimitU32` and `LimitU64`). -/
structure Limit where
  mode : LimitMode
  value : Nat
  deriving DecidableEq, Repr

structure UserLimitsPatch where
  maxAllocations : Option Limit
  maxBytesPerSecPerAllocation : Option Limit
  maxLifetimeSecs : Option Limit
  deriving DecidableEq, Repr

def UserLimitsPatch.default : UserLimitsPatch := ⟨none, none, none⟩

def UserLimitsPatch.isEmpty (patch : UserLimitsPatch) : Bool :=
  patch.maxAllocations.isNone && patch.maxBytesPerSecPerAllocation.isNone && patch.maxLifetimeSecs.isNone

inductive UserLimitScope where
  | global
  | tenant
  | user
  deriving DecidableEq, Repr

structure UserLimitTarget where
  scope : UserLimitScope
  tenant : String
  realm : String
  username : String
  deriving DecidableEq, Repr

def component (value : String) : String :=
  String.ofList (Nat.toDigits 10 value.utf8ByteSize) ++ ":" ++ value

def UserLimitTarget.subjectKey (target : UserLimitTarget) : String :=
  match target.scope with
  | .global => "global"
  | .tenant => "tenant:" ++ component target.realm ++ ":" ++ component target.tenant
  | .user =>
    "user:" ++ component target.realm ++ ":" ++ component target.tenant ++ ":" ++ component target.username

structure EffectiveUserLimits where
  maxAllocations : Nat
  allocationsDisabled : Bool
  maxBytesPerSecPerAllocation : Nat
  bandwidthDisabled : Bool
  maxLifetimeSecs : Nat
  lifetimeDisabled : Bool
  inheritedFields : List String
  cappedFields : List String
  deriving DecidableEq, Repr

def EffectiveUserLimits.default : EffectiveUserLimits := ⟨0, false, 0, false, 0, false, [], []⟩

/-! ## Typed commands and results -/

structure UpdateConfigCommand where
  schemaVersion : Nat
  expectedVersion : Nat
  maxAllocations : Option Nat
  maxAllocationsPerUser : Option Nat
  maxBytesPerSecPerAllocation : Option Nat
  deriving DecidableEq, Repr

inductive TerminalStatus where
  | applied
  | noOp
  | conflict
  | failed
  | superseded
  deriving DecidableEq, Repr

structure UpdateConfigResult where
  requestId : String
  previousVersion : Nat
  observedVersion : Nat
  changed : Bool
  applied : RuntimeConfigSnapshot
  terminalStatus : TerminalStatus
  error : String
  rolledBack : Bool
  deriving DecidableEq, Repr

structure SetUserLimitsCommand where
  schemaVersion : Nat
  expectedVersion : Nat
  target : UserLimitTarget
  patch : UserLimitsPatch
  deriving DecidableEq, Repr

structure SetUserLimitsResult where
  requestId : String
  previousVersion : Nat
  observedVersion : Nat
  effective : EffectiveUserLimits
  maxUserAllocationsInScope : Nat
  maxUserAllocationsAboveLimit : Bool
  terminalStatus : TerminalStatus
  error : String
  deriving DecidableEq, Repr

inductive ResultText where
  | plain (text : String)
  | updateConfig (result : UpdateConfigResult)
  | setUserLimits (result : SetUserLimitsResult)
  deriving DecidableEq, Repr

/-! ## Durable state -/

structure AppliedOperation where
  requestId : String
  op : String
  idempotencyKey : String
  payloadHash : String
  appliedVersion : Nat
  terminalResult : ResultText
  appliedAtMs : Nat
  deriving DecidableEq, Repr

inductive RuntimeStatus where
  | desired
  | applying
  | observed
  | failed
  deriving DecidableEq, Repr

structure NodeRuntimeState where
  nodeId : String
  incarnation : String
  desiredVersion : Nat
  observedVersion : Nat
  desiredSnapshot : RuntimeConfigSnapshot
  observedSnapshot : RuntimeConfigSnapshot
  status : RuntimeStatus
  lastError : String
  updatedAtMs : Nat
  lastApplied : Option AppliedOperation
  deriving DecidableEq, Repr

structure UserLimitsState where
  schemaVersion : Nat
  nodeId : String
  subjectKey : String
  target : UserLimitTarget
  incarnation : String
  desiredVersion : Nat
  observedVersion : Nat
  desiredPatch : UserLimitsPatch
  observedPatch : UserLimitsPatch
  status : RuntimeStatus
  lastError : String
  updatedAtMs : Nat
  lastApplied : Option AppliedOperation
  deriving DecidableEq, Repr

/-! ## The command log -/

inductive CommandStatus where
  | pending
  | inProgress
  | done
  | failed
  | superseded
  | expired
  deriving DecidableEq, Repr

structure PendingCommand where
  requestId : String
  targetNodeId : String
  op : String
  args : List String
  payloadJson : String
  targetIncarnation : String
  status : CommandStatus
  result : ResultText
  createdAtMs : Nat
  updatedAtMs : Nat
  claimedBy : String
  leaseUntilMs : Nat
  attempts : Nat
  claimToken : String
  idempotencyKey : String
  deriving DecidableEq, Repr

/-- `finalStatus` is `none` while the command is pending. -/
structure IdempotencyRecord where
  requestId : String
  payloadHash : String
  finalStatus : Option CommandStatus
  result : ResultText
  createdAtMs : Nat
  completedAtMs : Nat
  deriving DecidableEq, Repr

structure CommandLogRetention where
  doneMs : Nat
  failedMs : Nat
  supersededMs : Nat
  expiredMs : Nat
  idempotencyMs : Nat
  batch : Nat
  maxBatches : Nat
  deriving DecidableEq, Repr

structure GcStats where
  deletedCommands : Nat
  deletedIdempotency : Nat
  terminalRemaining : Nat
  oldestUnfinishedAgeMs : Nat
  errors : Nat
  deriving DecidableEq, Repr

def maxCommandAttempts : Nat := 5

namespace PayloadHash

def fnvOffset : UInt64 := 0xcbf29ce484222325

def fnvPrime : UInt64 := 0x100000001b3

def feed (h : UInt64) (bytes : List UInt8) : UInt64 :=
  bytes.foldl (fun h b => (h ^^^ b.toUInt64) * fnvPrime) h

def leBytes (n : Nat) : List UInt8 := (List.range 8).map (fun i => UInt8.ofNat (n / 256 ^ i))

def feedText (h : UInt64) (text : String) : UInt64 :=
  feed (feed h (leBytes text.utf8ByteSize)) (text.toList.flatMap String.utf8EncodeChar)

end PayloadHash

open PayloadHash in
/-- The FNV-1a hash of the operation and its payload, as 16 hexadecimal digits. -/
def commandPayloadHash (op : String) (args : List String) (payloadJson : String) : String :=
  let h := feedText fnvOffset op
  let h :=
    if payloadJson.isEmpty then args.foldl feedText (feed h (leBytes args.length)) else feedText h payloadJson
  String.ofList (Text.padded 16 16 h.toNat)

end

/-! ## The command log and the idempotency journal -/

/-- The maps of the in-memory backend that the management plane uses. -/
structure ManagementBackend where
  commands : HashMap String PendingCommand
  commandIdempotency : HashMap String IdempotencyRecord
  runtimeStates : HashMap String NodeRuntimeState
  userLimitsStates : HashMap (String × String) UserLimitsState

def ManagementBackend.new : ManagementBackend := ⟨.empty, .empty, .empty, .empty⟩

/-! ## One command, one record -/

def ResultText.deadLetter : ResultText :=
  .plain ("dead_letter: exceeded " ++ String.ofList (Nat.toDigits 10 maxCommandAttempts) ++ " claim attempts")

def CommandStatus.terminal (status : CommandStatus) : Bool := status == .done || status == .failed

namespace PendingCommand

def targets (nodeId incarnation : String) (c : PendingCommand) : Bool :=
  c.targetNodeId == nodeId && (c.targetIncarnation.isEmpty || c.targetIncarnation == incarnation)

def claimable (now : Nat) (c : PendingCommand) : Bool :=
  c.status == .pending || (c.status == .inProgress && decide (c.leaseUntilMs ≤ now))

def stale (currentIncarnation : String) (c : PendingCommand) : Bool :=
  !c.targetIncarnation.isEmpty && c.targetIncarnation != currentIncarnation

def finish (status : CommandStatus) (result : ResultText) (now : Nat) (c : PendingCommand) : PendingCommand :=
  { c with
    status
    result
    updatedAtMs := now }

def claim (nodeId token : String) (leaseMs now : Nat) (c : PendingCommand) : PendingCommand :=
  { c with
    status := .inProgress
    claimedBy := nodeId
    claimToken := token
    leaseUntilMs := saturatingAdd 64 now leaseMs
    attempts := saturatingAdd 32 c.attempts 1
    updatedAtMs := now }

def payloadHash (c : PendingCommand) : String := commandPayloadHash c.op c.args c.payloadJson

end PendingCommand

structure EnqueueRequest where
  requestId : String
  targetNodeId : String
  op : String
  args : List String
  payloadJson : String
  targetIncarnation : String
  idempotencyKey : String
  deriving DecidableEq, Repr

def EnqueueRequest.command (req : EnqueueRequest) (now : Nat) : PendingCommand where
  requestId := req.requestId
  targetNodeId := req.targetNodeId
  op := req.op
  args := req.args
  payloadJson := req.payloadJson
  targetIncarnation := req.targetIncarnation
  status := .pending
  result := .plain ""
  createdAtMs := now
  updatedAtMs := now
  claimedBy := ""
  leaseUntilMs := 0
  attempts := 0
  claimToken := ""
  idempotencyKey := req.idempotencyKey

def IdempotencyRecord.finish (status : CommandStatus) (result : ResultText) (completedAtMs : Nat)
    (r : IdempotencyRecord) : IdempotencyRecord :=
  if r.finalStatus.isNone then
    { r with
      finalStatus := some status
      result
      completedAtMs }
  else r

namespace ManagementBackend

variable (b : ManagementBackend)

/-! ## The journal -/

def mirrorOutcome (key : String) (status : CommandStatus) (result : ResultText) (now : Nat) : ManagementBackend :=
  if key.isEmpty then b
  else { b with commandIdempotency := b.commandIdempotency.modify key (.finish status result now) }

def journalAppliedOutcome (op : AppliedOperation) : ManagementBackend :=
  b.mirrorOutcome op.idempotencyKey .done op.terminalResult op.appliedAtMs

def recordCommandOutcome (requestId idempotencyKey payloadHash : String) (finalStatus : Option CommandStatus)
    (result : ResultText) (completedAtMs : Nat) : Except BackendError Bool × ManagementBackend :=
  if idempotencyKey.isEmpty then (.ok false, b)
  else
    match b.commandIdempotency.get idempotencyKey with
    | none =>
      (.error (.conflict
        ("record_command_outcome: no canonical idempotency record for key " ++ idempotencyKey)), b)
    | some r =>
      if r.requestId ≠ requestId then
        (.error (.conflict
          ("record_command_outcome: request_id " ++ requestId ++ " does not own key " ++ idempotencyKey)), b)
      else if r.payloadHash ≠ payloadHash then
        (.error (.conflict ("record_command_outcome: payload hash mismatch for key " ++ idempotencyKey)), b)
      else if r.finalStatus.isSome then
        if r.result = result then (.ok true, b)
        else
          (.error (.conflict
            ("record_command_outcome: different terminal outcome for key " ++ idempotencyKey)), b)
      else
        (.ok true,
          { b with
            commandIdempotency := b.commandIdempotency.insert idempotencyKey
              { r with
                finalStatus := some (finalStatus.getD .done)
                result
                completedAtMs } })

def getIdempotency (key : String) : Option IdempotencyRecord := b.commandIdempotency.get key

/-! ## Commands -/

def insertCommand (cmd : PendingCommand) : ManagementBackend :=
  { b with commands := b.commands.orInsert cmd.requestId cmd }

/-- A later request with the same payload gets the request id of the first. -/
def enqueueCommand (now : Nat) (cmd : PendingCommand) : Except BackendError String × ManagementBackend :=
  if cmd.idempotencyKey.isEmpty then (.ok cmd.requestId, b.insertCommand cmd)
  else
    match b.commandIdempotency.get cmd.idempotencyKey with
    | some r =>
      if r.payloadHash ≠ cmd.payloadHash then
        (.error (.conflict
          ("idempotency key " ++ cmd.idempotencyKey.quote ++ " reused with a different payload")), b)
      else (.ok r.requestId, b)
    | none =>
      let r : IdempotencyRecord :=
        { requestId := cmd.requestId
          payloadHash := cmd.payloadHash
          finalStatus := none
          result := .plain ""
          createdAtMs := now
          completedAtMs := 0 }
      (.ok cmd.requestId,
        { b with commandIdempotency := b.commandIdempotency.insert cmd.idempotencyKey r }.insertCommand cmd)

def finishCommand (key : String) (c : PendingCommand) (status : CommandStatus) (result : ResultText)
    (now : Nat) : ManagementBackend :=
  { b with commands := b.commands.insert key (c.finish status result now) }.mirrorOutcome c.idempotencyKey
    status result now

/-- With what the call draws from its surroundings: the clock, the order and one token per claim. -/
structure ClaimRequest where
  nodeId : String
  incarnation : String
  max : Nat
  leaseMs : Nat
  now : Nat
  order : IterOrder
  token : Nat → String

def claimNext (req : ClaimRequest) :
    List PendingCommand × ManagementBackend → String × PendingCommand → List PendingCommand × ManagementBackend
  | (claimed, b), (key, c) =>
    if req.max ≤ claimed.length then (claimed, b)
    else if !c.targets req.nodeId req.incarnation then (claimed, b)
    else if !c.claimable req.now then (claimed, b)
    else if maxCommandAttempts ≤ c.attempts then
      (claimed, b.finishCommand key c .failed .deadLetter req.now)
    else
      let c := c.claim req.nodeId (req.token claimed.length) req.leaseMs req.now
      (claimed ++ [c], { b with commands := b.commands.insert key c })

def claimCommands (req : ClaimRequest) : List PendingCommand × ManagementBackend :=
  (req.order.visit b.commands.entries).foldl (claimNext req) ([], b)

def completeCommand (now : Nat) (requestId claimedBy claimToken : String) (status : CommandStatus)
    (result : ResultText) : Bool × ManagementBackend :=
  match b.commands.get requestId with
  | none => (false, b)
  | some c =>
    if c.status = .inProgress ∧ c.claimedBy = claimedBy ∧ c.claimToken = claimToken then
      (true, b.finishCommand requestId c status result now)
    else (false, b)

/-- A command of an earlier incarnation that nobody will claim any more is closed. -/
def finalizeStaleCommand (now : Nat) (requestId currentIncarnation : String) (result : ResultText) :
    Bool × ManagementBackend :=
  match b.commands.get requestId with
  | none => (false, b)
  | some c =>
    if !c.status.terminal && c.stale currentIncarnation then
      (true, b.finishCommand requestId c .done result now)
    else (false, b)

def listStaleCommands (order : IterOrder) (nodeId currentIncarnation : String) (max : Nat) : List PendingCommand :=
  (((order.visit b.commands.entries).map Prod.snd).filter fun c =>
    c.targetNodeId == nodeId && !c.status.terminal && c.stale currentIncarnation).take max

def getCommand (requestId : String) : Option PendingCommand := b.commands.get requestId

end ManagementBackend

/-! ## Garbage collection -/

namespace CommandLogRetention

variable (r : CommandLogRetention)

/-- How long a command of this status is kept; `none` keeps it for good. -/
def ttl : CommandStatus → Option Nat
  | .done => some r.doneMs
  | .failed => some r.failedMs
  | .superseded => some r.supersededMs
  | .expired => some r.expiredMs
  | .pending => none
  | .inProgress => none

def cap : Nat := max (saturatingMul 64 r.batch r.maxBatches) 1

def commandDue (now : Nat) (c : PendingCommand) : Bool :=
  (r.ttl c.status).any fun ttl => decide (ttl < now - c.updatedAtMs)

def recordDue (now : Nat) (rec : IdempotencyRecord) : Bool :=
  decide (0 < rec.completedAtMs) && decide (r.idempotencyMs < now - rec.completedAtMs)

end CommandLogRetention

structure GcScan where
  toRemove : List String
  terminalTotal : Nat
  oldestUnfinished : Nat
  deriving DecidableEq, Repr

def GcScan.visit (r : CommandLogRetention) (now : Nat) (scan : GcScan) (c : PendingCommand) : GcScan :=
  match r.ttl c.status with
  | none => { scan with oldestUnfinished := max scan.oldestUnfinished (now - c.createdAtMs) }
  | some ttl =>
    { scan with
      terminalTotal := scan.terminalTotal + 1
      toRemove :=
        if ttl < now - c.updatedAtMs ∧ scan.toRemove.length < r.cap then scan.toRemove ++ [c.requestId]
        else scan.toRemove }

/-- The pass over the journal selects one record more, while the shared budget lasts. -/
def selectRecord (r : CommandLogRetention) (now spent : Nat) (selected : List String)
    (e : String × IdempotencyRecord) : List String :=
  if r.recordDue now e.2 ∧ spent + selected.length < r.cap then selected ++ [e.1] else selected

namespace ManagementBackend

variable (b : ManagementBackend)

def gcScan (r : CommandLogRetention) (order : IterOrder) (now : Nat) : GcScan :=
  ((order.visit b.commands.entries).map Prod.snd).foldl (GcScan.visit r now) ⟨[], 0, 0⟩

def gcRecords (r : CommandLogRetention) (order : IterOrder) (now spent : Nat) : List String :=
  (order.visit b.commandIdempotency.entries).foldl (selectRecord r now spent) []

def gcCommandLog (r : CommandLogRetention) (order : IterOrder) (now : Nat) : GcStats × ManagementBackend :=
  let scan := b.gcScan r order now
  let selected := b.gcRecords r order now scan.toRemove.length
  ({ deletedCommands := scan.toRemove.length
     deletedIdempotency := selected.length
     terminalRemaining := scan.terminalTotal - scan.toRemove.length
     oldestUnfinishedAgeMs := scan.oldestUnfinished
     errors := 0 },
    { b with
      commands := scan.toRemove.foldl HashMap.remove b.commands
      commandIdempotency := selected.foldl HashMap.remove b.commandIdempotency })

end ManagementBackend

end Turna.StateBackend
