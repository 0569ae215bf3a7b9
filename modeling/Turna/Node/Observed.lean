import Turna.Node.RuntimeManagement

/-! # Desired and observed state under fencing

What a call of one incarnation does to the durable state of its node. The rows of a node carry the
incarnation that adopted it last, so that the calls of any other incarnation change nothing.
-/

namespace Turna.Node
open Lib StateBackend Config HashMap Option

structure World where
  log : LogHistory
  started : List String
  current : String
  confirmed : Option RuntimeConfigSnapshot
  confirmedLimits : HashMap String UserLimitsPatch
  raised : List (String × String)

namespace World

def new : World := ⟨.new, [], "", none, .empty, []⟩

variable (w : World)

def runtimeRow (nodeId : String) : Option NodeRuntimeState := w.log.backend.runtimeStates.get nodeId

def limitsRow (nodeId subjectKey : String) : Option UserLimitsState :=
  w.log.backend.userLimitsStates.get (nodeId, subjectKey)

def runtimeVersion (nodeId : String) : Nat := ((w.runtimeRow nodeId).map NodeRuntimeState.observedVersion).getD 0

def limitsVersion (nodeId subjectKey : String) : Nat :=
  ((w.limitsRow nodeId subjectKey).map UserLimitsState.observedVersion).getD 0

/-- A subject without a row has none of its fields set. -/
def observedPatch (nodeId subjectKey : String) : UserLimitsPatch :=
  ((w.limitsRow nodeId subjectKey).map UserLimitsState.observedPatch).getD .default

/-- The key and payload of an operation whose confirmation raised a version. -/
def raisedBy (before after : Nat) (applied : Option AppliedOperation) : List (String × String) :=
  if before < after then (applied.map fun op => (op.idempotencyKey, op.payloadHash)).toList ++ w.raised
  else w.raised

def after (env : Surroundings) (c : BackendCall) : World :=
  let w' := { w with log := (c.op env).elim w.log fun op => op.apply w.log }
  match c with
  | .adoptNodeIncarnation _ incarnation => { w' with current := incarnation }
  | .confirmRuntimeObserved nodeId version incarnation observed .observed error applied =>
    if (w.log.backend.confirmRuntimeObserved env.now nodeId version incarnation observed .observed error applied).1 then
      { w' with
        confirmed := some observed
        raised := w.raisedBy (w.runtimeVersion nodeId) (w'.runtimeVersion nodeId) applied }
    else w'
  | .confirmUserLimitsObserved nodeId subjectKey version incarnation observed .observed error applied =>
    if (w.log.backend.confirmUserLimitsObserved env.now nodeId subjectKey version incarnation observed .observed error
        applied).1 then
      { w' with
        confirmedLimits := w.confirmedLimits.insert subjectKey observed
        raised := w.raisedBy (w.limitsVersion nodeId subjectKey) (w'.limitsVersion nodeId subjectKey) applied }
    else w'
  | _ => w'

end World

def perform (env : Surroundings) (w : World) : (c : NodeCall) → c.Answer × World
  | .backend c =>
    match env.fault with
    | .none => (c.answer env w.log.backend, w.after env c)
    | .before error => (.error error, w)
    | .after error => (.error error, w.after env c)
  | .nowMs => (env.now, w)
  | .usage _ => (env.usage, w)
  | .otherCommand _ => ((env.other.1, .plain env.other.2), w)

/-! ## Processes -/

inductive Job where
  | updateConfig (pending : PendingCommand)
  | setUserLimits (pending : PendingCommand)
  | tick

inductive Phase where
  | booting (limits : DynamicLimits)
  | running (prog : Manage (Option Session.Published))
  | idle (p : Session.Published)
  | exited

structure Process where
  incarnation : String
  phase : Phase

inductive Task where
  | process (proc : Process)
  | request (now : Nat) (req : EnqueueRequest)

inductive Move where
  | call (env : Surroundings)
  | begin (job : Job)

namespace NodeSetup

variable (node : NodeSetup)

def management (incarnation : String) : RuntimeManagement := { node with incarnation }

def bootPublished (limits : DynamicLimits) : Session.Published where
  runtime := sessionRuntime ⟨0, limits⟩
  userLimits := { Session.UserLimitsSnapshot.empty with bootstrapMaxLifetimeSecs := absoluteMaxLifetime }

def bootProg (incarnation : String) (limits : DynamicLimits) : Manage (Option Session.Published) := do
  let restored ← (node.management incarnation).restore ⟨0, limits⟩ (bootPublished limits)
  pure restored.toOption

def jobProg (incarnation : String) (p : Session.Published) : Job → Manage (Option Session.Published)
  | .updateConfig pending => do
    let (_, p) ← (node.management incarnation).applyUpdateConfig p pending
    pure (some p)
  | .setUserLimits pending => do
    let (_, p) ← (node.management incarnation).applySetUserLimits p pending
    pure (some p)
  | .tick => do
    let p ← (node.management incarnation).commandTick p
    pure (some p)

def prog (proc : Process) : Option (Manage (Option Session.Published)) :=
  match proc.phase with
  | .booting limits => some (node.bootProg proc.incarnation limits)
  | .running prog => some prog
  | .idle _ => none
  | .exited => none

end NodeSetup

def Phase.of : Manage (Option Session.Published) → Phase
  | .done (some p) => .idle p
  | .done none => .exited
  | .call c next => .running (.call c next)

def NodeSetup.advance (node : NodeSetup) (w : World) (proc : Process) : Move → Option (World × Process)
  | .call env =>
    match node.prog proc with
    | some (.call c next) =>
      let r := perform env w c
      some (r.2, { proc with phase := .of (next r.1) })
    | _ => none
  | .begin job =>
    match proc.phase with
    | .idle p => some (w, { proc with phase := .of (node.jobProg proc.incarnation p job) })
    | _ => none

def managementMachine (node : NodeSetup) : Machine World Task Move where
  start w
    | .process ⟨incarnation, .booting _⟩ =>
      if incarnation.isEmpty || w.started.contains incarnation then none
      else some { w with started := incarnation :: w.started }
    | .process _ => none
    | .request now req => some { w with log := CommandOp.apply w.log (.enqueue now req) }
  advance move w
    | .process proc => (node.advance w proc move).map fun r => (r.1, .process r.2)
    | .request _ _ => none

/-! ## Rows -/

/-- A limit that overrides, with a value exactly where its mode has one. -/
def PlainLimit (limit : Limit) : Prop :=
  limit.mode ≠ .inherit ∧ (limit.mode = .value ↔ limit.value ≠ 0)

structure PlainPatch (patch : UserLimitsPatch) : Prop where
  maxAllocations : ∀ limit ∈ patch.maxAllocations, PlainLimit limit
  maxBytesPerSecPerAllocation : ∀ limit ∈ patch.maxBytesPerSecPerAllocation, PlainLimit limit
  maxLifetimeSecs : ∀ limit ∈ patch.maxLifetimeSecs, PlainLimit limit

theorem plainPatch_default : PlainPatch .default :=
  ⟨fun _ h => (not_mem_none _ h).elim, fun _ h => (not_mem_none _ h).elim,
    fun _ h => (not_mem_none _ h).elim⟩

structure RuntimeRowOk (node : NodeSetup) (row : NodeRuntimeState) : Prop where
  snapshot : validatePersistedSnapshot row.observedSnapshot node.validationCtx = .ok ()
  version : row.observedSnapshot.version = row.observedVersion
  desired : row.desiredVersion = row.observedVersion ∨ row.desiredVersion = row.observedVersion + 1

structure LimitsRowOk (key : String) (row : UserLimitsState) : Prop where
  schema : row.schemaVersion = commandSchemaVersion
  subject : row.subjectKey = key
  target : row.target.subjectKey = key ∧ validateTarget row.target = .ok ()
  observed : PlainPatch row.observedPatch
  desired : row.desiredVersion = row.observedVersion ∨ row.desiredVersion = row.observedVersion + 1

/-- Well formed, stamped with the current incarnation, with what was confirmed last. -/
structure Durable (node : NodeSetup) (w : World) : Prop where
  runtime : ∀ row, w.runtimeRow node.nodeId = some row →
    row.incarnation = w.current ∧ w.current.isEmpty = false ∧ RuntimeRowOk node row ∧
      ∀ s ∈ w.confirmed, row.observedSnapshot = s
  present : w.runtimeRow node.nodeId = none → w.confirmed = none
  limits : ∀ key row, w.limitsRow node.nodeId key = some row →
    row.incarnation = w.current ∧ w.current.isEmpty = false ∧ LimitsRowOk key row
  confirmedLimits : ∀ key, (w.confirmedLimits.get key).getD .default = w.observedPatch node.nodeId key

/-- The durable state of the node is the same, and so is what was confirmed. -/
structure SameRows (w w' : World) : Prop where
  runtime : w'.log.backend.runtimeStates = w.log.backend.runtimeStates
  limits : w'.log.backend.userLimitsStates = w.log.backend.userLimitsStates
  confirmed : w'.confirmed = w.confirmed
  confirmedLimits : w'.confirmedLimits = w.confirmedLimits

structure ObservedSame (node : NodeSetup) (w w' : World) : Prop where
  runtime : ∀ row, w.runtimeRow node.nodeId = some row →
    ∃ row', w'.runtimeRow node.nodeId = some row' ∧ row'.observedSnapshot = row.observedSnapshot
  limits : ∀ key, w'.observedPatch node.nodeId key = w.observedPatch node.nodeId key
  confirmed : w'.confirmed = w.confirmed

structure VersionsGrow (node : NodeSetup) (w w' : World) : Prop where
  runtime : ∀ row, w.runtimeRow node.nodeId = some row →
    ∃ row', w'.runtimeRow node.nodeId = some row' ∧ row.observedVersion ≤ row'.observedVersion
  limits : ∀ key row, w.limitsRow node.nodeId key = some row →
    ∃ row', w'.limitsRow node.nodeId key = some row' ∧ row.observedVersion ≤ row'.observedVersion

section Rows

variable {node : NodeSetup} {w w' w'' : World}

theorem SameRows.refl (w : World) : SameRows w w := ⟨rfl, rfl, rfl, rfl⟩

theorem SameRows.trans (h : SameRows w w') (h' : SameRows w' w'') : SameRows w w'' :=
  ⟨h'.runtime.trans h.runtime, h'.limits.trans h.limits, h'.confirmed.trans h.confirmed,
    h'.confirmedLimits.trans h.confirmedLimits⟩

theorem SameRows.runtimeRow (h : SameRows w w') (nodeId : String) : w'.runtimeRow nodeId = w.runtimeRow nodeId :=
  congrArg (get · nodeId) h.runtime

theorem SameRows.limitsRow (h : SameRows w w') (nodeId key : String) : w'.limitsRow nodeId key = w.limitsRow nodeId key :=
  congrArg (get · (nodeId, key)) h.limits

theorem SameRows.observedPatch (h : SameRows w w') (nodeId key : String) :
    w'.observedPatch nodeId key = w.observedPatch nodeId key := by
  rw [World.observedPatch, h.limitsRow]
  rfl

theorem SameRows.versionsGrow (h : SameRows w w') : VersionsGrow node w w' where
  runtime row hRow := ⟨row, (h.runtimeRow _).trans hRow, Nat.le_refl _⟩
  limits key row hRow := ⟨row, (h.limitsRow _ key).trans hRow, Nat.le_refl _⟩

theorem VersionsGrow.trans (h : VersionsGrow node w w') (h' : VersionsGrow node w' w'') : VersionsGrow node w w'' where
  runtime row hRow := by
    obtain ⟨row', hRow', hLe⟩ := h.runtime row hRow
    obtain ⟨row'', hRow'', hLe'⟩ := h'.runtime row' hRow'
    exact ⟨row'', hRow'', hLe.trans hLe'⟩
  limits key row hRow := by
    obtain ⟨row', hRow', hLe⟩ := h.limits key row hRow
    obtain ⟨row'', hRow'', hLe'⟩ := h'.limits key row' hRow'
    exact ⟨row'', hRow'', hLe.trans hLe'⟩

theorem SameRows.observedSame (h : SameRows w w') : ObservedSame node w w' where
  runtime row hRow := ⟨row, (h.runtimeRow _).trans hRow, rfl⟩
  limits := h.observedPatch node.nodeId
  confirmed := h.confirmed

theorem ObservedSame.trans (h : ObservedSame node w w') (h' : ObservedSame node w' w'') : ObservedSame node w w'' where
  runtime row hRow := by
    obtain ⟨row', hRow', hSame⟩ := h.runtime row hRow
    obtain ⟨row'', hRow'', hSame'⟩ := h'.runtime row' hRow'
    exact ⟨row'', hRow'', hSame'.trans hSame⟩
  limits key := (h'.limits key).trans (h.limits key)
  confirmed := h'.confirmed.trans h.confirmed

theorem Durable.congr (hInv : Durable node w) (h : SameRows w w') (hCurrent : w'.current = w.current) :
    Durable node w' where
  runtime row hRow := by
    rw [h.confirmed, hCurrent]
    exact hInv.runtime row ((h.runtimeRow _).symm.trans hRow)
  present hRow := by
    rw [h.confirmed]
    exact hInv.present ((h.runtimeRow _).symm.trans hRow)
  limits key row hRow := by
    rw [hCurrent]
    exact hInv.limits key row ((h.limitsRow _ key).symm.trans hRow)
  confirmedLimits key := by
    rw [h.confirmedLimits, h.observedPatch]
    exact hInv.confirmedLimits key

theorem Durable.updateRuntime (hInv : Durable node w) {row : NodeRuntimeState}
    (hRow : w'.runtimeRow node.nodeId = some row) (hIncarnation : row.incarnation = w.current)
    (hNonempty : w.current.isEmpty = false) (hOk : RuntimeRowOk node row)
    (hConfirmed : ∀ s ∈ w'.confirmed, row.observedSnapshot = s) (hCurrent : w'.current = w.current)
    (hLimits : w'.log.backend.userLimitsStates = w.log.backend.userLimitsStates)
    (hLimits' : w'.confirmedLimits = w.confirmedLimits) : Durable node w' := by
  have hLimitsRow (key : String) : w'.limitsRow node.nodeId key = w.limitsRow node.nodeId key :=
    congrArg (get · (node.nodeId, key)) hLimits
  constructor
  · intro row' hRow'
    obtain rfl := some.inj (hRow.symm.trans hRow')
    rw [hCurrent]
    exact ⟨hIncarnation, hNonempty, hOk, hConfirmed⟩
  · intro hNone
    rw [hRow] at hNone
    cases hNone
  · intro key row' hRow'
    rw [hCurrent]
    exact hInv.limits key row' ((hLimitsRow key).symm.trans hRow')
  · intro key
    rw [hLimits', World.observedPatch, hLimitsRow]
    exact hInv.confirmedLimits key

theorem Durable.updateLimits (hInv : Durable node w) {key : String} {row : UserLimitsState}
    (hRows : ∀ key', w'.limitsRow node.nodeId key' = if key' = key then some row else w.limitsRow node.nodeId key')
    (hIncarnation : row.incarnation = w.current) (hNonempty : w.current.isEmpty = false) (hOk : LimitsRowOk key row)
    (hConfirmed : ∀ key', (w'.confirmedLimits.get key').getD .default =
      if key' = key then row.observedPatch else (w.confirmedLimits.get key').getD .default)
    (hCurrent : w'.current = w.current)
    (hRuntime : w'.log.backend.runtimeStates = w.log.backend.runtimeStates)
    (hRuntime' : w'.confirmed = w.confirmed) : Durable node w' := by
  have hRuntimeRow : w'.runtimeRow node.nodeId = w.runtimeRow node.nodeId := congrArg (get · node.nodeId) hRuntime
  constructor
  · intro row' hRow'
    rw [hCurrent, hRuntime']
    exact hInv.runtime row' (hRuntimeRow.symm.trans hRow')
  · intro hNone
    rw [hRuntime']
    exact hInv.present (hRuntimeRow.symm.trans hNone)
  · intro key' row' hRow'
    rw [hCurrent]
    rw [hRows] at hRow'
    split at hRow'
    · next hKey =>
      cases hRow'
      exact ⟨hIncarnation, hNonempty, hKey ▸ hOk⟩
    · exact hInv.limits key' row' hRow'
  · intro key'
    rw [hConfirmed, World.observedPatch, hRows]
    split
    · rfl
    · exact hInv.confirmedLimits key'

theorem VersionsGrow.ofRuntime {row' : NodeRuntimeState} (hRow' : w'.runtimeRow node.nodeId = some row')
    (hVersion : ∀ row, w.runtimeRow node.nodeId = some row → row.observedVersion ≤ row'.observedVersion)
    (hLimits : w'.log.backend.userLimitsStates = w.log.backend.userLimitsStates) : VersionsGrow node w w' where
  runtime row hRow := ⟨row', hRow', hVersion row hRow⟩
  limits key row hRow :=
    ⟨row, (congrArg (get · (node.nodeId, key)) hLimits).trans hRow, Nat.le_refl _⟩

theorem VersionsGrow.ofLimits {key : String} {row' : UserLimitsState}
    (hRows : ∀ key', w'.limitsRow node.nodeId key' = if key' = key then some row' else w.limitsRow node.nodeId key')
    (hVersion : ∀ row, w.limitsRow node.nodeId key = some row → row.observedVersion ≤ row'.observedVersion)
    (hRuntime : w'.log.backend.runtimeStates = w.log.backend.runtimeStates) : VersionsGrow node w w' where
  runtime row hRow := ⟨row, (congrArg (get · node.nodeId) hRuntime).trans hRow, Nat.le_refl _⟩
  limits key' row hRow := by
    rw [hRows]
    split
    · next hKey => exact ⟨row', rfl, hVersion row (hKey ▸ hRow)⟩
    · exact ⟨row, hRow, Nat.le_refl _⟩

end Rows

/-! ## What a call does to the rows -/

/-- What an incarnation does to the state it shares: as long as another one is current, nothing. -/
structure Guarantee (node : NodeSetup) (me : String) (w w' : World) : Prop where
  fenced : w'.current = me ∨ w'.current = w.current ∧ SameRows w w'
  grows : VersionsGrow node w w'

theorem SameRows.guarantee {node : NodeSetup} {me : String} {w w' : World} (h : SameRows w w')
    (hCurrent : w'.current = w.current) : Guarantee node me w w' :=
  ⟨.inr ⟨hCurrent, h⟩, h.versionsGrow⟩

section Effects

variable {node : NodeSetup} {me : String} {w : World} {env : Surroundings}

theorem mirrorOutcome_eq (b : ManagementBackend) (key : String) (status : CommandStatus) (result : ResultText)
    (now : Nat) : ∃ journal, b.mirrorOutcome key status result now = { b with commandIdempotency := journal } := by
  unfold ManagementBackend.mirrorOutcome
  split <;> exact ⟨_, rfl⟩

theorem journalApplied_eq (b : ManagementBackend) (applied : Option AppliedOperation) :
    ∃ journal, applied.elim b b.journalAppliedOutcome = { b with commandIdempotency := journal } := by
  cases applied with
  | none => exact ⟨_, rfl⟩
  | some op => exact mirrorOutcome_eq ..

def BackendCall.quiet : BackendCall → Bool
  | .getRuntimeState _ => true
  | .getUserLimitsState _ _ => true
  | .listUserLimitsStates _ => true
  | .getIdempotency _ => true
  | .recordCommandOutcome _ _ _ _ _ _ => true
  | _ => false

theorem recordCommandOutcome_eq (b : ManagementBackend) (requestId key hash : String)
    (status : Option CommandStatus) (result : ResultText) (at' : Nat) :
    ∃ journal, (b.recordCommandOutcome requestId key hash status result at').2 =
      { b with commandIdempotency := journal } := by
  unfold ManagementBackend.recordCommandOutcome
  split
  · exact ⟨_, rfl⟩
  split
  · exact ⟨_, rfl⟩
  split
  · exact ⟨_, rfl⟩
  split
  · exact ⟨_, rfl⟩
  split
  · split <;> exact ⟨_, rfl⟩
  · exact ⟨_, rfl⟩

theorem after_quiet {c : BackendCall} (hQuiet : c.quiet = true) :
    SameRows w (w.after env c) ∧ (w.after env c).current = w.current := by
  cases c with
  | recordCommandOutcome requestId key hash status result at' =>
    obtain ⟨journal, hAfter⟩ := recordCommandOutcome_eq w.log.backend requestId key hash status result at'
    exact ⟨⟨congrArg (·.runtimeStates) hAfter, congrArg (·.userLimitsStates) hAfter, rfl, rfl⟩, rfl⟩
  | getRuntimeState | getUserLimitsState | listUserLimitsStates | getIdempotency => exact ⟨.refl w, rfl⟩
  | _ => cases hQuiet

theorem not_fencedOut {stored : String} (hNonempty : stored.isEmpty = false) (h : ¬ fencedOut stored me = true) :
    stored = me := by
  rw [fencedOut, hNonempty, Bool.not_false, Bool.true_and, bne_iff_ne, not_not] at h
  exact h

theorem fencedOut_self (me : String) : fencedOut me me = false := by
  rw [fencedOut, bne_self_eq_false, Bool.and_false]

theorem current_of_fence {stored : String} (hStamp : stored = w.current) (hNonempty : w.current.isEmpty = false)
    (hFence : fencedOut stored me = false) : w.current = me := by
  rw [← hStamp] at hNonempty ⊢
  exact not_fencedOut hNonempty (by rw [hFence]; exact Bool.false_ne_true)

def World.withBackend (w : World) (b : ManagementBackend) : World :=
  { w with
    log := { w.log with backend := b } }

/-- A call that keeps the discipline of the node's rows and leaves what is observed. -/
structure RowStep (node : NodeSetup) (me : String) (w w' : World) : Prop where
  durable : Durable node w'
  guarantee : Guarantee node me w w'
  observed : ObservedSame node w w'

theorem RowStep.same {w' : World} (hInv : Durable node w) (hSame : SameRows w w') (hCurrent : w'.current = w.current) :
    RowStep node me w w' :=
  ⟨hInv.congr hSame hCurrent, hSame.guarantee hCurrent, hSame.observedSame⟩

theorem RowStep.congr {w' w'' : World} (h : RowStep node me w w') (hSame : SameRows w' w'')
    (hCurrent : w''.current = w'.current) : RowStep node me w w'' where
  durable := h.durable.congr hSame hCurrent
  guarantee :=
    { fenced := h.guarantee.fenced.imp hCurrent.trans fun hOther =>
        ⟨hCurrent.trans hOther.1, hOther.2.trans hSame⟩
      grows :=
        { runtime := fun row hRow => by
            rw [hSame.runtimeRow]
            exact h.guarantee.grows.runtime row hRow
          limits := fun key row hRow => by
            rw [hSame.limitsRow]
            exact h.guarantee.grows.limits key row hRow } }
  observed := h.observed.trans hSame.observedSame

theorem RowStep.ofRuntime (hInv : Durable node w) {row : NodeRuntimeState} (hCurrent : w.current = me)
    (hIncarnation : row.incarnation = me) (hNonempty : w.current.isEmpty = false) (hOk : RuntimeRowOk node row)
    (hConfirmed : ∀ s ∈ w.confirmed, row.observedSnapshot = s)
    (hOld : ∀ state, w.runtimeRow node.nodeId = some state →
      state.observedVersion ≤ row.observedVersion ∧ row.observedSnapshot = state.observedSnapshot) :
    RowStep node me w (w.withBackend { w.log.backend with
      runtimeStates := w.log.backend.runtimeStates.insert node.nodeId row }) := by
  constructor
  · exact hInv.updateRuntime (get_insert_self ..) (hIncarnation.trans hCurrent.symm) hNonempty hOk hConfirmed rfl rfl rfl
  · exact ⟨.inl hCurrent, .ofRuntime (get_insert_self ..) (fun state hState => (hOld state hState).1) rfl⟩
  · exact ⟨fun state hState => ⟨_, get_insert_self .., (hOld state hState).2⟩, fun _ => rfl, rfl⟩

theorem sameRows_withBackend (w : World) : SameRows w (w.withBackend w.log.backend) := ⟨rfl, rfl, rfl, rfl⟩

section CasRuntime

variable {expected : Nat} {desired : RuntimeConfigSnapshot} {r : Bool × ManagementBackend}

theorem casRuntime_step (hInv : Durable node w) (hMe : me.isEmpty = false)
    (hFree : w.current ≠ me → w.runtimeRow node.nodeId ≠ none)
    (hDesired : validatePersistedSnapshot desired node.validationCtx = .ok ())
    (hVersion : desired.version = expected + 1 ∨ expected = 0 ∧ desired.version = 0)
    (hCas : ManagementBackend.CasRuntime w.log.backend env.now node.nodeId expected me desired r) :
    RowStep node me w (w.withBackend r.2) := by
  cases hCas with
  | insert hVacant hExpected hZero =>
    have hVacant : w.runtimeRow node.nodeId = none := hVacant
    have hCurrent : w.current = me := by
      by_contra hNe
      exact hFree hNe hVacant
    refine .ofRuntime hInv hCurrent rfl (hCurrent ▸ hMe) ⟨hDesired, hZero, .inl rfl⟩ (fun s hs => ?_)
      fun state hState => ?_
    · rw [hInv.present hVacant] at hs
      cases hs
    · rw [hVacant] at hState
      cases hState
  | @update state hGet hObserved hFence =>
    obtain ⟨hStamp, hNonempty, hOk, hConfirmed⟩ := hInv.runtime state hGet
    refine .ofRuntime hInv (current_of_fence hStamp hNonempty hFence) rfl hNonempty ⟨hOk.snapshot, hOk.version, ?_⟩
      hConfirmed fun row hRow => ?_
    · obtain hNext | ⟨hZero, hDesired⟩ := hVersion
      · exact .inr (hObserved ▸ hNext)
      · exact .inl ((hDesired.trans hZero.symm).trans hObserved.symm)
    · obtain rfl := some.inj (hRow.symm.trans hGet)
      exact ⟨Nat.le_refl _, rfl⟩
  | refuse hVacant hFence => exact .same hInv (sameRows_withBackend w) rfl

theorem casRuntime_prepared (hCas : ManagementBackend.CasRuntime w.log.backend env.now node.nodeId expected me desired r)
    (hAnswer : r.1 = true) : ∃ row, (w.withBackend r.2).runtimeRow node.nodeId = some row ∧
      row.desiredVersion = desired.version ∧ row.observedVersion = expected := by
  cases hCas with
  | insert hVacant hExpected hZero => exact ⟨_, get_insert_self .., hZero.symm, hExpected.symm⟩
  | update hGet hObserved hFence => exact ⟨_, get_insert_self .., rfl, hObserved⟩
  | refuse => cases hAnswer

theorem casRuntime_answers (hInv : Durable node w) (hCurrent : w.current = me)
    (hKnown : ∀ row, w.runtimeRow node.nodeId = some row → row.observedVersion = expected)
    (hNew : w.runtimeRow node.nodeId = none → expected = 0 ∧ desired.version = 0)
    (hCas : ManagementBackend.CasRuntime w.log.backend env.now node.nodeId expected me desired r) : r.1 = true := by
  cases hCas with
  | insert | update => rfl
  | refuse hVacant hFence =>
    cases hRow : w.runtimeRow node.nodeId with
    | none => exact absurd (hNew hRow).2 (hVacant hRow (hNew hRow).1)
    | some row =>
      have hFenced := hFence row hRow (hKnown row hRow)
      rw [(hInv.runtime row hRow).1, hCurrent, fencedOut_self] at hFenced
      cases hFenced

end CasRuntime

section ConfirmRuntime

variable {version : Nat} {observed : RuntimeConfigSnapshot} {status : RuntimeStatus} {error : String}
  {applied : Option AppliedOperation}

theorem confirmRuntime_report (hInv : Durable node w) (hStatus : status ≠ .observed) {r : Bool × ManagementBackend}
    (hConfirm : ManagementBackend.ConfirmRuntime w.log.backend env.now node.nodeId version me observed status error
      applied r) : RowStep node me w (w.withBackend r.2) := by
  cases hConfirm with
  | observe hGet hVersion hIncarnation hObserved => exact absurd hObserved hStatus
  | @report state hGet hVersion hIncarnation =>
    obtain ⟨hStamp, hNonempty, hOk, hConfirmed⟩ := hInv.runtime state hGet
    refine .ofRuntime hInv (hStamp.symm.trans hIncarnation) hIncarnation hNonempty
      ⟨hOk.snapshot, hOk.version, hOk.desired⟩ hConfirmed fun row hRow => ?_
    obtain rfl := some.inj (hRow.symm.trans hGet)
    exact ⟨Nat.le_refl _, rfl⟩
  | refuse hFence => exact .same hInv (sameRows_withBackend w) rfl

structure RuntimeObserved (node : NodeSetup) (me : String) (observed : RuntimeConfigSnapshot) (answer : Bool)
    (w w' : World) : Prop where
  durable : Durable node w'
  guarantee : Guarantee node me w w'
  refused : answer = false → SameRows w w'
  observes : answer = true → w'.confirmed = some observed ∧
    ∃ row, w'.runtimeRow node.nodeId = some row ∧ row.observedSnapshot = observed
  limits : w'.log.backend.userLimitsStates = w.log.backend.userLimitsStates
  current : w'.current = w.current

theorem after_observeRuntime {r : Bool × ManagementBackend}
    (hResult : w.log.backend.confirmRuntimeObserved env.now node.nodeId version me observed .observed error applied = r) :
    let w' := w.after env (.confirmRuntimeObserved node.nodeId version me observed .observed error applied)
    w'.log.backend = r.2 ∧ w'.confirmed = (if r.1 then some observed else w.confirmed) ∧ w'.current = w.current ∧
      w'.confirmedLimits = w.confirmedLimits := by
  subst hResult
  intro w'
  simp only [w', World.after]
  split
  all_goals exact ⟨rfl, rfl, rfl, rfl⟩

theorem confirmRuntime_observe (hInv : Durable node w) (hVersion : observed.version = version)
    (hValid : validatePersistedSnapshot observed node.validationCtx = .ok ()) :
    RuntimeObserved node me observed
      (w.log.backend.confirmRuntimeObserved env.now node.nodeId version me observed .observed error applied).1 w
      (w.after env (.confirmRuntimeObserved node.nodeId version me observed .observed error applied)) := by
  have hConfirm := @ManagementBackend.confirmRuntime w.log.backend env.now node.nodeId me version observed .observed
    error applied
  generalize hResult : w.log.backend.confirmRuntimeObserved env.now node.nodeId version me observed .observed error
    applied = r at hConfirm
  obtain ⟨hBackend, hConfirmed', hCurrent', hConfirmedLimits'⟩ := after_observeRuntime hResult
  generalize w.after env (.confirmRuntimeObserved node.nodeId version me observed .observed error applied) = w' at *
  cases hConfirm with
  | @observe state hGet hDesired hIncarnation _ b' hAfter =>
    obtain ⟨hStamp, hNonempty, hOk, -⟩ := hInv.runtime state hGet
    obtain ⟨journal, hJournal⟩ := journalApplied_eq b' applied
    rw [hJournal, hAfter] at hBackend
    have hRow := (congrArg (·.runtimeStates.get node.nodeId) hBackend).trans (get_insert_self ..)
    have hLimits : w'.log.backend.userLimitsStates = w.log.backend.userLimitsStates := by rw [hBackend]
    constructor
    · refine hInv.updateRuntime hRow hStamp hNonempty ⟨hValid, rfl, .inl (hDesired.trans hVersion.symm)⟩
        (fun s hs => ?_) hCurrent' hLimits hConfirmedLimits'
      rw [hConfirmed'] at hs
      exact some.inj hs
    · refine ⟨.inl (hCurrent'.trans (hStamp.symm.trans hIncarnation)), .ofRuntime hRow (fun row hRow' => ?_) hLimits⟩
      obtain rfl := some.inj (hRow'.symm.trans hGet)
      have hDesired' := hOk.desired
      show row.observedVersion ≤ observed.version
      omega
    · intro hAnswer
      cases hAnswer
    · exact fun _ => ⟨hConfirmed', _, hRow, rfl⟩
    · exact hLimits
    · exact hCurrent'
  | report hGet hDesired hIncarnation hStatus => exact absurd rfl hStatus
  | refuse hFence =>
    have hSame : SameRows w w' := ⟨congrArg _ hBackend, congrArg _ hBackend, hConfirmed', hConfirmedLimits'⟩
    exact ⟨hInv.congr hSame hCurrent', hSame.guarantee hCurrent', fun _ => hSame, nofun, hSame.limits, hCurrent'⟩

theorem confirmRuntime_answers (hInv : Durable node w) (hCurrent : w.current = me) {row : NodeRuntimeState}
    (hRow : w.runtimeRow node.nodeId = some row) (hVersion : row.desiredVersion = version) :
    (w.log.backend.confirmRuntimeObserved env.now node.nodeId version me observed status error applied).1 = true := by
  have hConfirm := @ManagementBackend.confirmRuntime w.log.backend env.now node.nodeId me version observed status
    error applied
  generalize w.log.backend.confirmRuntimeObserved env.now node.nodeId version me observed status error applied = r
    at hConfirm
  cases hConfirm with
  | observe | report => rfl
  | refuse hFence => exact absurd ((hInv.runtime row hRow).1.trans hCurrent) (hFence row hRow hVersion)

end ConfirmRuntime

section CasLimits

variable {key : String} {expected : Nat} {target : UserLimitTarget} {desired : UserLimitsPatch}
  {r : Except BackendError Bool × ManagementBackend}

theorem limitsRow_insert (b : ManagementBackend) (nodeId key : String) (row : UserLimitsState) (key' : String) :
    (b.userLimitsStates.insert (nodeId, key) row).get (nodeId, key') =
      if key' = key then some row else b.userLimitsStates.get (nodeId, key') := by
  rw [get_insert]
  simp only [Prod.mk.injEq, true_and]

theorem RowStep.ofLimits (hInv : Durable node w) {row : UserLimitsState} (hCurrent : w.current = me)
    (hIncarnation : row.incarnation = me) (hNonempty : w.current.isEmpty = false) (hOk : LimitsRowOk key row)
    (hPatch : row.observedPatch = w.observedPatch node.nodeId key)
    (hVersion : ∀ state, w.limitsRow node.nodeId key = some state → state.observedVersion ≤ row.observedVersion) :
    RowStep node me w (w.withBackend { w.log.backend with
      userLimitsStates := w.log.backend.userLimitsStates.insert (node.nodeId, key) row }) := by
  have hObserved (key' : String) :
      (if key' = key then row.observedPatch else w.observedPatch node.nodeId key') = w.observedPatch node.nodeId key' := by
    split
    · next hKey => rw [hKey, hPatch]
    · rfl
  constructor
  · refine hInv.updateLimits (limitsRow_insert _ _ key _) (hIncarnation.trans hCurrent.symm) hNonempty hOk
      (fun key' => ?_) rfl rfl rfl
    rw [hInv.confirmedLimits, hObserved]
    exact hInv.confirmedLimits key'
  · exact ⟨.inl hCurrent, .ofLimits (limitsRow_insert _ _ key _) hVersion rfl⟩
  · refine ⟨fun row hRow => ⟨row, hRow, rfl⟩, fun key' => ?_, rfl⟩
    rw [← hObserved, World.observedPatch, World.limitsRow, World.withBackend, limitsRow_insert]
    split <;> rfl

theorem casLimits_step (hInv : Durable node w) (hMe : me.isEmpty = false)
    (hFree : w.current ≠ me → w.limitsRow node.nodeId key ≠ none)
    (hTarget : target.subjectKey = key ∧ validateTarget target = .ok ())
    (hCas : ManagementBackend.CasUserLimits w.log.backend env.now node.nodeId key expected me target desired r) :
    RowStep node me w (w.withBackend r.2) := by
  cases hCas with
  | insert hVacant hExpected =>
    have hVacant : w.limitsRow node.nodeId key = none := hVacant
    have hCurrent : w.current = me := by
      by_contra hNe
      exact hFree hNe hVacant
    refine .ofLimits hInv hCurrent rfl (hCurrent ▸ hMe) ⟨rfl, rfl, hTarget, plainPatch_default, .inr rfl⟩ ?_
      fun state hState => ?_
    · rw [World.observedPatch, hVacant]
      rfl
    · rw [hVacant] at hState
      cases hState
  | @update state hGet hObserved hFence =>
    obtain ⟨hStamp, hNonempty, hOk⟩ := hInv.limits key state hGet
    have hGet : w.limitsRow node.nodeId key = some state := hGet
    refine .ofLimits hInv (current_of_fence hStamp hNonempty hFence) rfl hNonempty
      ⟨hOk.schema, hOk.subject, hOk.target, hOk.observed, .inr (congrArg Nat.succ hObserved.symm)⟩ ?_ ?_
    · rw [World.observedPatch, hGet]
      rfl
    rw [hGet]
    rintro _ ⟨⟩
    exact Nat.le_refl _
  | overflow | refuse => exact .same hInv (sameRows_withBackend w) rfl

theorem casLimits_prepared
    (hCas : ManagementBackend.CasUserLimits w.log.backend env.now node.nodeId key expected me target desired r)
    (hAnswer : r.1 = .ok true) :
    ∃ row, (w.withBackend r.2).limitsRow node.nodeId key = some row ∧ row.desiredVersion = expected + 1 := by
  cases hCas with
  | insert hVacant hExpected =>
    subst hExpected
    exact ⟨_, get_insert_self .., rfl⟩
  | update hGet hObserved hFence => exact ⟨_, get_insert_self .., rfl⟩
  | overflow | refuse => cases hAnswer

theorem casLimits_answers (hInv : Durable node w) (hCurrent : w.current = me)
    (hKnown : w.limitsVersion node.nodeId key = expected)
    (hCas : ManagementBackend.CasUserLimits w.log.backend env.now node.nodeId key expected me target desired r) :
    r.1 ≠ .ok false := by
  cases hCas with
  | insert | update | overflow => exact nofun
  | refuse hVacant hFence =>
    exfalso
    cases hRow : w.limitsRow node.nodeId key with
    | none =>
      rw [World.limitsVersion, hRow] at hKnown
      exact hVacant hRow hKnown.symm
    | some row =>
      rw [World.limitsVersion, hRow] at hKnown
      have hFenced := hFence row hRow hKnown
      rw [(hInv.limits key row hRow).1, hCurrent, fencedOut_self] at hFenced
      cases hFenced

theorem casLimits_ok (hRoom : expected + 1 < 2 ^ 64)
    (hCas : ManagementBackend.CasUserLimits w.log.backend env.now node.nodeId key expected me target desired r) :
    ∃ answer, r.1 = .ok answer := by
  cases hCas with
  | overflow hExpected =>
    have hMax : uintMax 64 = 2 ^ 64 - 1 := rfl
    omega
  | _ => exact ⟨_, rfl⟩

end CasLimits

section ConfirmLimits

variable {key : String} {version : Nat} {observed : UserLimitsPatch} {status : RuntimeStatus} {error : String}
  {applied : Option AppliedOperation}

theorem confirmLimits_report (hInv : Durable node w) (hStatus : status ≠ .observed) {r : Bool × ManagementBackend}
    (hConfirm : ManagementBackend.ConfirmUserLimits w.log.backend env.now node.nodeId key version me observed status
      error applied r) : RowStep node me w (w.withBackend r.2) := by
  cases hConfirm with
  | observe hGet hVersion hIncarnation hObserved => exact absurd hObserved hStatus
  | @report state hGet hVersion hIncarnation =>
    obtain ⟨hStamp, hNonempty, hOk⟩ := hInv.limits key state hGet
    have hGet : w.limitsRow node.nodeId key = some state := hGet
    refine .ofLimits hInv (hStamp.symm.trans hIncarnation) hIncarnation hNonempty
      ⟨hOk.schema, hOk.subject, hOk.target, hOk.observed, hOk.desired⟩ ?_ ?_
    · rw [World.observedPatch, hGet]
      rfl
    rw [hGet]
    rintro _ ⟨⟩
    exact Nat.le_refl _
  | refuse => exact .same hInv (sameRows_withBackend w) rfl

structure LimitsObserved (node : NodeSetup) (me key : String) (observed : UserLimitsPatch) (answer : Bool)
    (w w' : World) : Prop where
  durable : Durable node w'
  guarantee : Guarantee node me w w'
  refused : answer = false → SameRows w w'
  observes : answer = true → ∀ key',
    w'.observedPatch node.nodeId key' = if key' = key then observed else w.observedPatch node.nodeId key'
  runtime : w'.log.backend.runtimeStates = w.log.backend.runtimeStates
  confirmed : w'.confirmed = w.confirmed
  current : w'.current = w.current

theorem after_observeLimits {r : Bool × ManagementBackend}
    (hResult : w.log.backend.confirmUserLimitsObserved env.now node.nodeId key version me observed .observed error
      applied = r) :
    let w' := w.after env (.confirmUserLimitsObserved node.nodeId key version me observed .observed error applied)
    w'.log.backend = r.2 ∧
      w'.confirmedLimits = (if r.1 then w.confirmedLimits.insert key observed else w.confirmedLimits) ∧
      w'.current = w.current ∧ w'.confirmed = w.confirmed := by
  subst hResult
  intro w'
  simp only [w', World.after]
  split
  all_goals exact ⟨rfl, rfl, rfl, rfl⟩

theorem confirmLimits_observe (hInv : Durable node w) (hPlain : PlainPatch observed) :
    LimitsObserved node me key observed
      (w.log.backend.confirmUserLimitsObserved env.now node.nodeId key version me observed .observed error applied).1 w
      (w.after env (.confirmUserLimitsObserved node.nodeId key version me observed .observed error applied)) := by
  have hConfirm := @ManagementBackend.confirmUserLimits w.log.backend env.now node.nodeId key me version observed
    .observed error applied
  generalize hResult : w.log.backend.confirmUserLimitsObserved env.now node.nodeId key version me observed .observed
    error applied = r at hConfirm
  obtain ⟨hBackend, hConfirmed', hCurrent', hRuntimeConfirmed⟩ := after_observeLimits hResult
  generalize w.after env (.confirmUserLimitsObserved node.nodeId key version me observed .observed error applied) = w'
    at *
  cases hConfirm with
  | @observe state hGet hDesired hIncarnation _ b' hAfter =>
    obtain ⟨hStamp, hNonempty, hOk⟩ := hInv.limits key state hGet
    have hGet : w.limitsRow node.nodeId key = some state := hGet
    obtain ⟨journal, hJournal⟩ := journalApplied_eq b' applied
    rw [hJournal, hAfter] at hBackend
    have hRows (key' : String) : w'.limitsRow node.nodeId key' = _ :=
      (congrArg (·.userLimitsStates.get (node.nodeId, key')) hBackend).trans (limitsRow_insert ..)
    have hRuntime : w'.log.backend.runtimeStates = w.log.backend.runtimeStates := by rw [hBackend]
    constructor
    · refine hInv.updateLimits hRows hStamp hNonempty
        ⟨hOk.schema, hOk.subject, hOk.target, hPlain, .inl hDesired⟩ (fun key' => ?_) hCurrent' hRuntime
        hRuntimeConfirmed
      rw [hConfirmed', if_pos rfl, get_insert]
      split <;> rfl
    · refine ⟨.inl (hCurrent'.trans (hStamp.symm.trans hIncarnation)), .ofLimits hRows (fun row hRow' => ?_) hRuntime⟩
      obtain rfl := some.inj (hRow'.symm.trans hGet)
      have hDesired' := hOk.desired
      show row.observedVersion ≤ version
      omega
    · intro hAnswer
      cases hAnswer
    · intro _ key'
      rw [World.observedPatch, hRows]
      split <;> rfl
    · exact hRuntime
    · exact hRuntimeConfirmed
    · exact hCurrent'
  | report hGet hDesired hIncarnation hStatus => exact absurd rfl hStatus
  | refuse hFence =>
    have hSame : SameRows w w' := ⟨congrArg _ hBackend, congrArg _ hBackend, hRuntimeConfirmed, hConfirmed'⟩
    exact ⟨hInv.congr hSame hCurrent', hSame.guarantee hCurrent', fun _ => hSame, (by rintro ⟨⟩),
      hSame.runtime, hSame.confirmed, hCurrent'⟩

theorem confirmLimits_answers (hInv : Durable node w) (hCurrent : w.current = me) {row : UserLimitsState}
    (hRow : w.limitsRow node.nodeId key = some row) (hVersion : row.desiredVersion = version) :
    (w.log.backend.confirmUserLimitsObserved env.now node.nodeId key version me observed status error applied).1 =
      true := by
  have hConfirm := @ManagementBackend.confirmUserLimits w.log.backend env.now node.nodeId key me version observed
    status error applied
  generalize w.log.backend.confirmUserLimitsObserved env.now node.nodeId key version me observed status error applied =
    r at hConfirm
  cases hConfirm with
  | observe | report => rfl
  | refuse hFence => exact absurd ((hInv.limits key row hRow).1.trans hCurrent) (hFence row hRow hVersion)

end ConfirmLimits

theorem adopt_step (hInv : Durable node w) (hMe : me.isEmpty = false) :
    let w' := w.after env (.adoptNodeIncarnation node.nodeId me)
    RowStep node me w w' ∧ w'.current = me ∧ w'.confirmed = w.confirmed ∧
      (w.runtimeRow node.nodeId = none → w'.runtimeRow node.nodeId = none) := by
  intro w'
  have hRuntime : w'.runtimeRow node.nodeId = (w.runtimeRow node.nodeId).map fun state =>
      { state with
        incarnation := me
        updatedAtMs := env.now } := by
    have hGet := get_modify w.log.backend.runtimeStates node.nodeId node.nodeId fun state =>
      { state with
        incarnation := me
        updatedAtMs := env.now }
    rw [if_pos rfl] at hGet
    exact hGet
  have hLimits (key : String) : w'.limitsRow node.nodeId key = (w.limitsRow node.nodeId key).map fun state =>
      { state with
        incarnation := me
        updatedAtMs := env.now } := by
    have hGet := get_mapValues (fun (key : String × String) (state : UserLimitsState) =>
      if key.1 = node.nodeId then
        { state with
          incarnation := me
          updatedAtMs := env.now }
      else state) w.log.backend.userLimitsStates (node.nodeId, key)
    simp only [if_true] at hGet
    exact hGet
  refine ⟨⟨?_, ⟨.inl rfl, ?_⟩, ?_⟩, rfl, rfl, fun hNone => ?_⟩
  · constructor
    · intro row hRow
      rw [hRuntime] at hRow
      obtain ⟨state, hState, rfl⟩ := map_eq_some_iff.mp hRow
      obtain ⟨-, -, hOk, hConfirmed⟩ := hInv.runtime state hState
      exact ⟨rfl, hMe, ⟨hOk.snapshot, hOk.version, hOk.desired⟩, hConfirmed⟩
    · intro hNone
      rw [hRuntime, map_eq_none_iff] at hNone
      exact hInv.present hNone
    · intro key row hRow
      rw [hLimits] at hRow
      obtain ⟨state, hState, rfl⟩ := map_eq_some_iff.mp hRow
      obtain ⟨-, -, hOk⟩ := hInv.limits key state hState
      exact ⟨rfl, hMe, hOk.schema, hOk.subject, hOk.target, hOk.observed, hOk.desired⟩
    · intro key
      rw [World.observedPatch, hLimits, map_map]
      exact hInv.confirmedLimits key
  · constructor
    · intro row hRow
      rw [hRuntime, hRow]
      exact ⟨_, rfl, Nat.le_refl _⟩
    intro key row hRow
    rw [hLimits, hRow]
    exact ⟨_, rfl, Nat.le_refl _⟩
  · constructor
    · intro row hRow
      rw [hRuntime, hRow]
      exact ⟨_, rfl, rfl⟩
    · intro key
      rw [World.observedPatch, hLimits, map_map]
      rfl
    · rfl
  · rw [hRuntime, hNone]
    rfl

end Effects

/-! ## Subject keys -/

theorem toList_component (value : String) :
    (component value).toList = Nat.toDigits 10 value.utf8ByteSize ++ ':' :: value.toList := by
  simp [component, String.toList_append]

theorem component_append_inj {a b rest rest' : String} (h : component a ++ rest = component b ++ rest') :
    a = b ∧ rest = rest' := by
  have hList := congrArg String.toList h
  rw [String.toList_append, String.toList_append, toList_component, toList_component, List.append_assoc,
    List.append_assoc] at hList
  have hColon (n : Nat) : ':' ∉ Nat.toDigits 10 n := fun hMem => by
    cases Nat.isDigit_of_mem_toDigits (by decide) (by decide) hMem
  obtain ⟨hDigits, hRest⟩ := Text.append_sep_inj (hColon _) (hColon _) hList
  have hSize := Text.toDigits_inj (by decide) hDigits
  rw [← String.utf8Len_toList, ← String.utf8Len_toList] at hSize
  obtain ⟨hValue, hTail⟩ := Text.append_inj_of_utf8Len hSize hRest
  exact ⟨String.toList_inj.mp hValue, String.toList_inj.mp hTail⟩

theorem component_inj {a b : String} (h : component a = component b) : a = b :=
  (@component_append_inj a b "" "" (by rw [h])).1

theorem head_subjectKey (target : UserLimitTarget) : target.subjectKey.toList.head? = match target.scope with
    | .global => some 'g'
    | .tenant => some 't'
    | .user => some 'u' := by
  unfold UserLimitTarget.subjectKey
  cases target.scope <;> simp [String.toList_append]

def overrideOf (s : Session.UserLimitsSnapshot) (target : UserLimitTarget) : Session.UserLimitsOverride :=
  match target.scope with
  | .global => s.global
  | .tenant => (s.tenants.get (target.realm, target.tenant)).getD .default
  | .user => (s.users.get (target.realm, target.tenant, target.username)).getD .default

def subjectParts (target : UserLimitTarget) : UserLimitScope × String × String × String :=
  match target.scope with
  | .global => (.global, "", "", "")
  | .tenant => (.tenant, target.realm, target.tenant, "")
  | .user => (.user, target.realm, target.tenant, target.username)

variable {t t' : UserLimitTarget}

theorem subjectKey_inj (h : t.subjectKey = t'.subjectKey) : subjectParts t = subjectParts t' := by
  have hHead := congrArg (fun key => key.toList.head?) h
  simp only [head_subjectKey] at hHead
  have hScopes : t'.scope = t.scope := by
    revert hHead
    cases t.scope <;> cases t'.scope <;> simp
  unfold UserLimitTarget.subjectKey at h
  unfold subjectParts
  rw [hScopes] at h ⊢
  cases hScope : t.scope with
  | global => rfl
  | tenant =>
    simp only [hScope, String.append_assoc, String.append_right_inj] at h
    obtain ⟨hRealm, hRest⟩ := component_append_inj h
    rw [hRealm, component_inj ((String.append_right_inj _).mp hRest)]
  | user =>
    simp only [hScope, String.append_assoc, String.append_right_inj] at h
    obtain ⟨hRealm, hRest⟩ := component_append_inj h
    obtain ⟨hTenant, hUser⟩ := component_append_inj ((String.append_right_inj _).mp hRest)
    rw [hRealm, hTenant, component_inj ((String.append_right_inj _).mp hUser)]

theorem subjectKey_of_parts (h : subjectParts t = subjectParts t') : t.subjectKey = t'.subjectKey := by
  unfold subjectParts at h
  unfold UserLimitTarget.subjectKey
  cases hScope : t.scope <;> cases hScope' : t'.scope <;> simp_all

theorem subjectKey_eq_iff : t.subjectKey = t'.subjectKey ↔ subjectParts t = subjectParts t' :=
  ⟨subjectKey_inj, subjectKey_of_parts⟩

def SameSubject (t t' : UserLimitTarget) : Prop :=
  t.scope = t'.scope ∧ (t.scope = .tenant → t.realm = t'.realm ∧ t.tenant = t'.tenant) ∧
    (t.scope = .user → t.realm = t'.realm ∧ t.tenant = t'.tenant ∧ t.username = t'.username)

theorem subjectParts_eq_iff : subjectParts t = subjectParts t' ↔ SameSubject t t' := by
  unfold subjectParts SameSubject
  cases t.scope <;> cases t'.scope <;> simp

/-- What is desired or confirmed for one subject leaves the row of every other subject as it was. -/
theorem subjects_never_alias (t t' : UserLimitTarget) : (t.subjectKey = t'.subjectKey ↔ SameSubject t t') ∧
    ∀ (b : ManagementBackend) (now version : Nat) (nodeId nodeId' incarnation error : String) (patch : UserLimitsPatch)
      (status : RuntimeStatus) (applied : Option AppliedOperation), SameSubject t t' ∨
      (b.casUserLimitsDesired now nodeId t.subjectKey version incarnation t patch).2.getUserLimitsState nodeId'
          t'.subjectKey = b.getUserLimitsState nodeId' t'.subjectKey ∧
        (b.confirmUserLimitsObserved now nodeId t.subjectKey version incarnation patch status error
          applied).2.getUserLimitsState nodeId' t'.subjectKey = b.getUserLimitsState nodeId' t'.subjectKey := by
  have hKeys := subjectKey_eq_iff.trans (@subjectParts_eq_iff t t')
  refine ⟨hKeys, fun b now version nodeId nodeId' incarnation error patch status applied => ?_⟩
  rw [← hKeys, or_iff_not_imp_left]
  intro hNe
  have hOther : (nodeId', t'.subjectKey) ≠ (nodeId, t.subjectKey) := fun hEq => hNe (Prod.mk.inj hEq).2.symm
  constructor
  · have hCas := @ManagementBackend.casUserLimits b now nodeId t.subjectKey incarnation version t patch
    generalize b.casUserLimitsDesired now nodeId t.subjectKey version incarnation t patch = r at hCas
    cases hCas with
    | insert | update => exact get_insert_ne _ _ hOther
    | overflow | refuse => rfl
  · have hConfirm :=
      @ManagementBackend.confirmUserLimits b now nodeId t.subjectKey incarnation version patch status error applied
    generalize b.confirmUserLimitsObserved now nodeId t.subjectKey version incarnation patch status error applied = r
      at hConfirm
    cases hConfirm with
    | @observe _ _ _ _ _ b' hAfter =>
      obtain ⟨_, hJournal⟩ := journalApplied_eq b' applied
      rw [hJournal, hAfter]
      exact get_insert_ne _ _ hOther
    | report => exact get_insert_ne _ _ hOther
    | refuse => rfl

/-! ## Patches -/

section Patches

variable {patch current : UserLimitsPatch} {limit : Limit} {name : String}

theorem validateLimit_ok (h : validateLimit name limit = .ok ()) : limit.mode = .value ↔ limit.value ≠ 0 := by
  unfold validateLimit at h
  cases hMode : limit.mode <;> simp_all

theorem plain_mergeLimit {name : String} {current patch : Option Limit} (hCurrent : ∀ limit ∈ current, PlainLimit limit)
    (hPatch : validateField name patch = .ok ()) : ∀ limit ∈ mergeLimit current patch, PlainLimit limit := by
  cases patch with
  | none => exact hCurrent
  | some new =>
    intro limit hLimit
    rw [mergeLimit] at hLimit
    split at hLimit
    · cases hLimit
    next hMode =>
    cases hLimit
    exact ⟨hMode, validateLimit_ok hPatch⟩

theorem validatePatch_ok (h : validatePatch patch = .ok ()) :
    validateField "max_allocations" patch.maxAllocations = .ok () ∧
      validateField "max_bytes_per_sec_per_allocation" patch.maxBytesPerSecPerAllocation = .ok () ∧
      validateField "max_lifetime_secs" patch.maxLifetimeSecs = .ok () := by
  unfold validatePatch at h
  split at h
  · cases h
  cases hAlloc : validateField "max_allocations" patch.maxAllocations with
  | error e =>
    rw [hAlloc] at h
    cases h
  | ok u =>
    cases hBytes : validateField "max_bytes_per_sec_per_allocation" patch.maxBytesPerSecPerAllocation with
    | error e =>
      rw [hAlloc, hBytes] at h
      cases h
    | ok u =>
      rw [hAlloc, hBytes] at h
      exact ⟨rfl, rfl, h⟩

theorem PlainPatch.merge (hCurrent : PlainPatch current) (hPatch : validatePatch patch = .ok ()) :
    PlainPatch (mergePatch current patch) := by
  obtain ⟨hAlloc, hBytes, hLifetime⟩ := validatePatch_ok hPatch
  exact ⟨plain_mergeLimit hCurrent.maxAllocations hAlloc,
    plain_mergeLimit hCurrent.maxBytesPerSecPerAllocation hBytes,
    plain_mergeLimit hCurrent.maxLifetimeSecs hLifetime⟩

theorem validateField_of_plain {field : Option Limit} (h : ∀ limit ∈ field, PlainLimit limit) :
    validateField name field = .ok () := by
  cases field with
  | none => rfl
  | some limit =>
    obtain ⟨-, hValue⟩ := h limit rfl
    unfold validateField validateLimit
    cases hMode : limit.mode <;> simp_all

theorem PlainPatch.validate (h : PlainPatch patch) (hEmpty : patch.isEmpty = false) : validatePatch patch = .ok () := by
  unfold validatePatch
  rw [if_neg (by rw [hEmpty]; exact Bool.false_ne_true), validateField_of_plain h.maxAllocations,
    validateField_of_plain h.maxBytesPerSecPerAllocation, validateField_of_plain h.maxLifetimeSecs]
  rfl

theorem none_of_inherit {field : Option Limit} (h : ∀ limit ∈ field, PlainLimit limit)
    (hInherit : (field.map sessionLimit).all (fun limit => limit.mode == .inherit) = true) : field = none := by
  cases field with
  | none => rfl
  | some limit =>
    have hMode := (h limit rfl).1
    cases hLimit : limit.mode <;> simp_all [sessionLimit, sessionMode]

theorem PlainPatch.override_default (h : PlainPatch patch) (hInherit : (sessionOverride patch).isInheritOnly = true) :
    sessionOverride patch = .default := by
  simp only [Session.UserLimitsOverride.isInheritOnly, List.all_cons, List.all_nil, Bool.and_true, Bool.and_eq_true]
    at hInherit
  obtain ⟨hAlloc, hBytes, hLifetime⟩ := hInherit
  unfold sessionOverride
  rw [none_of_inherit h.maxAllocations hAlloc, none_of_inherit h.maxBytesPerSecPerAllocation hBytes,
    none_of_inherit h.maxLifetimeSecs hLifetime]
  rfl

end Patches

/-! ## Publication -/

section Publication

variable {p p' : Session.Published} {target : UserLimitTarget} {patch : UserLimitsPatch}
  {next : Session.UserLimitsSnapshot}

theorem snapshotWithPatch_ok (p : Session.Published) (target : UserLimitTarget) (patch : UserLimitsPatch) :
    ∃ next, snapshotWithPatch p target patch = .ok next := by
  unfold snapshotWithPatch
  cases target.scope with
  | global | tenant | user => exact ⟨_, rfl⟩

theorem getD_upsert {K : Type} [DecidableEq K] (m : HashMap K Session.UserLimitsOverride) (k k' : K)
    {value : Session.UserLimitsOverride} (hDefault : value.isInheritOnly = true → value = .default) :
    ((if value.isInheritOnly then m.remove k else m.insert k value).get k').getD .default =
      if k' = k then value else (m.get k').getD .default := by
  split
  · next hInherit =>
    rw [get_remove]
    split
    · exact (hDefault hInherit).symm
    · rfl
  · rw [get_insert]
    split <;> rfl

theorem override_snapshotWithPatch (hPatch : PlainPatch patch) (h : snapshotWithPatch p target patch = .ok next)
    (t : UserLimitTarget) : overrideOf next t =
      if t.subjectKey = target.subjectKey then sessionOverride patch else overrideOf p.userLimits t := by
  simp only [subjectKey_eq_iff]
  unfold snapshotWithPatch at h
  unfold subjectParts overrideOf
  cases hScope : target.scope with
  | global =>
    rw [hScope] at h
    cases h
    cases hScope' : t.scope <;> simp
  | tenant | user =>
    rw [hScope] at h
    cases h
    cases hScope' : t.scope <;> simp [getD_upsert _ _ _ hPatch.override_default]

theorem override_sameAs {s s' : Session.UserLimitsSnapshot} (h : s.sameAs s' = true) (t : UserLimitTarget) :
    overrideOf s t = overrideOf s' t := by
  simp only [Session.UserLimitsSnapshot.sameAs, Bool.and_eq_true, beq_iff_eq] at h
  obtain ⟨⟨⟨-, hGlobal⟩, hTenants⟩, hUsers⟩ := h
  unfold overrideOf
  rw [hGlobal, get_eq_of_sameAs hTenants, get_eq_of_sameAs hUsers]

/-- It fails only when the generations are used up, and then shows what was shown before. -/
inductive PublishesLimits (p : Session.Published) (next : Session.UserLimitsSnapshot) :
    Except Session.SessionError Unit × Session.Published → Prop where
  | shown {p' : Session.Published} (hRuntime : p'.runtime = p.runtime)
      (hOverride : ∀ t, overrideOf p'.userLimits t = overrideOf next t)
      (hGeneration : p'.userLimits.generation ≤ p.userLimits.generation + 1) : PublishesLimits p next (.ok (), p')
  | exhausted (hGeneration : 2 ^ 64 ≤ p.userLimits.generation + 1) :
      PublishesLimits p next (.error .cacheGenerationOverflow, p)

theorem publishesLimits (p : Session.Published) (next : Session.UserLimitsSnapshot) :
    PublishesLimits p next (p.publishUserLimits next) := by
  unfold Session.Published.publishUserLimits
  simp only
  split
  · next hSame => exact .shown rfl (fun t => (override_sameAs hSame t).symm) (Nat.le_succ _)
  split
  · exact .shown rfl (fun t => rfl) (Nat.le_refl _)
  · next hRoom => exact .exhausted (Nat.le_of_not_lt hRoom)

theorem publishUserLimits_room (hRoom : p.userLimits.generation + 1 < 2 ^ 64) :
    ∃ p', p.publishUserLimits next = (.ok (), p') ∧ PublishesLimits p next (.ok (), p') := by
  have hPublishes := publishesLimits p next
  generalize p.publishUserLimits next = r at hPublishes ⊢
  cases hPublishes with
  | shown hRuntime hOverride hGeneration => exact ⟨_, rfl, .shown hRuntime hOverride hGeneration⟩
  | exhausted hGeneration => omega

end Publication

end Turna.Node
