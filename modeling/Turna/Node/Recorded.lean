import Turna.Node.Dataplane
import Turna.StateBackend.Agreement

/-! # What is on record of an applied operation

An operation that raised an observed version is on record with the result it was confirmed with, and the slot of the
last applied operation of a row names such an operation. Every call of the node keeps this, if it closes a command
with the recorded result and confirms an operation only while the record of its key is open.
-/

namespace Turna.Node
open Lib StateBackend Config ManagementBackend World

def acceptsCommand (node : NodeSetup) (op payloadJson : String) : Prop :=
  op = "update_config" ∨ op = "set_user_limits" ∧ ∃ command, node.parseSetUserLimits payloadJson = .ok command

def readsResult (op : String) (result : ResultText) : Prop :=
  (op = "update_config" → ∃ r, result = .updateConfig r) ∧ (op = "set_user_limits" → ∃ r, result = .setUserLimits r)

def AppliedRecorded (w : World) (op : AppliedOperation) : Prop :=
  ∃ r, w.log.entry op.idempotencyKey = some r ∧ r.requestId = op.requestId ∧ r.payloadHash = op.payloadHash ∧
    r.finalStatus.isSome = true ∧ r.result = op.terminalResult

def World.lastApplied (w : World) (nodeId : String) (op : AppliedOperation) : Prop :=
  (∃ row, w.runtimeRow nodeId = some row ∧ row.lastApplied = some op) ∨
    ∃ key row, w.limitsRow nodeId key = some row ∧ row.lastApplied = some op

/-- One result for every request, and at most one raised version for every operation. -/
structure Once (node : NodeSetup) (w : World) : Prop where
  log : StateBackend.LogAgrees (acceptsCommand node) readsResult w.log
  applied : ∀ op, w.lastApplied node.nodeId op → AppliedRecorded w op
  raised : ∀ key hash, (key, hash) ∈ w.raised → ∃ r, w.log.entry key = some r ∧ r.payloadHash = hash ∧
    r.finalStatus.isSome = true ∧ reportsApplied r.result = true
  once : w.raised.Nodup

section Steps

variable {node : NodeSetup} {w w' : World}

variable {op : AppliedOperation}

theorem AppliedRecorded.kept (h : AppliedRecorded w op) (hKept : LogKept w.log w'.log) : AppliedRecorded w' op := by
  obtain ⟨r, hEntry, hId, hHash, hSettled, hResult⟩ := h
  exact ⟨r, hKept.entries _ r hEntry hSettled, hId, hHash, hSettled, hResult⟩

/-- Step lemma: an operation that raises a version was not on record before. -/
theorem Once.step (hInv : Once node w) (hLog : StateBackend.LogAgrees (acceptsCommand node) readsResult w'.log)
    (hKept : LogKept w.log w'.log)
    (hApplied : ∀ op, w'.lastApplied node.nodeId op → w.lastApplied node.nodeId op ∨ AppliedRecorded w' op)
    (hRaised : w'.raised = w.raised ∨ ∃ op, w'.raised = (op.idempotencyKey, op.payloadHash) :: w.raised ∧
      AppliedRecorded w' op ∧ reportsApplied op.terminalResult = true ∧
        ∀ r, w.log.entry op.idempotencyKey = some r → r.finalStatus = none) : Once node w' where
  log := hLog
  applied op hLast := (hApplied op hLast).elim (fun hOld => (hInv.applied op hOld).kept hKept) id
  raised key hash hMem := by
    have hOld (hMem : (key, hash) ∈ w.raised) : ∃ r, w'.log.entry key = some r ∧ r.payloadHash = hash ∧
        r.finalStatus.isSome = true ∧ reportsApplied r.result = true := by
      obtain ⟨r, hEntry, hHash, hSettled, hReports⟩ := hInv.raised key hash hMem
      exact ⟨r, hKept.entries key r hEntry hSettled, hHash, hSettled, hReports⟩
    obtain hSame | ⟨op, hMore, ⟨r, hEntry, -, hHash, hSettled, hResult⟩, hReports, -⟩ := hRaised
    · exact hOld (hSame ▸ hMem)
    rw [hMore, List.mem_cons] at hMem
    obtain hNew | hMem := hMem
    · cases hNew
      exact ⟨r, hEntry, hHash, hSettled, hResult ▸ hReports⟩
    · exact hOld hMem
  once := by
    obtain hSame | ⟨op, hMore, -, -, hOpen⟩ := hRaised
    · rw [hSame]
      exact hInv.once
    rw [hMore, List.nodup_cons]
    refine ⟨fun hMem => ?_, hInv.once⟩
    obtain ⟨r, hEntry, -, hSettled, -⟩ := hInv.raised _ _ hMem
    rw [hOpen r hEntry] at hSettled
    cases hSettled

theorem lastApplied_congr (hRuntime : w'.log.backend.runtimeStates = w.log.backend.runtimeStates)
    (hLimits : w'.log.backend.userLimitsStates = w.log.backend.userLimitsStates) {nodeId : String}
    {op : AppliedOperation} (h : w'.lastApplied nodeId op) : w.lastApplied nodeId op := by
  unfold lastApplied runtimeRow limitsRow at h ⊢
  rw [hRuntime, hLimits] at h
  exact h

theorem lastApplied_runtime {row : NodeRuntimeState} (h : (w.withBackend { w.log.backend with
      runtimeStates := w.log.backend.runtimeStates.insert node.nodeId row }).lastApplied node.nodeId op) :
    row.lastApplied = some op ∨ w.lastApplied node.nodeId op := by
  obtain ⟨row', hRow', hLast⟩ | hLimits := h
  · have hRow : some row = some row' := (HashMap.get_insert_self ..).symm.trans hRow'
    cases hRow
    exact .inl hLast
  · exact .inr (.inr hLimits)

theorem lastApplied_limits {key : String} {row : UserLimitsState} (h : (w.withBackend { w.log.backend with
      userLimitsStates := w.log.backend.userLimitsStates.insert (node.nodeId, key) row }).lastApplied node.nodeId op) :
    row.lastApplied = some op ∨ w.lastApplied node.nodeId op := by
  obtain hRuntime | ⟨key', row', hRow', hLast⟩ := h
  · exact .inr (.inl hRuntime)
  have hRow' : (w.log.backend.userLimitsStates.insert (node.nodeId, key) row).get (node.nodeId, key') = some row' :=
    hRow'
  rw [limitsRow_insert] at hRow'
  split at hRow'
  · cases hRow'
    exact .inl hLast
  · exact .inr (.inr ⟨key', row', hRow', hLast⟩)

end Steps

/-! ## The log after a call of the apply point -/

section Work

variable {node : NodeSetup} {w : World} {env : Surroundings} {c : BackendCall}

theorem command_after (hWork : c.isWork = true) (id : String) :
    (w.after env c).log.command id = w.log.command id := by
  obtain hSame | ⟨op, hEffects, hOp, hKeep, -⟩ := work_after hWork
  · rw [hSame]
  · exact LogEffects.command_eq hKeep hOp hEffects id

theorem journal_after (hInv : JournalInvariant w.log) (hWork : c.isWork = true) :
    JournalInvariant (w.after env c).log := by
  obtain hSame | ⟨op, hEffects, -, -, hNew, -⟩ := work_after hWork
  · rw [hSame]
    exact hInv
  · exact hInv.effects hNew hEffects

theorem settle_after (hInv : Once node w) (hWork : c.isWork = true)
    (hReads : ∀ key result, c.outcome = some (key, result) → ∀ id cmd, w.log.command id = some cmd →
      cmd.idempotencyKey = key → readsResult cmd.op result) :
    StateBackend.LogAgrees (acceptsCommand node) readsResult (w.after env c).log ∧ LogKept w.log (w.after env c).log := by
  refine hInv.log.settle (journal_after hInv.log.journal hWork) (command_after hWork) fun key => ?_
  obtain hSame | ⟨r, status, result, at', hEntry, hOpen, hOutcome, hAfter⟩ := @outcome_after w env c hWork key
  · exact .inl hSame
  · exact .inr ⟨r, status, result, at', hEntry, hOpen, hAfter, hReads key result hOutcome⟩

end Work

/-! ## The calls of the apply point -/

def OpenFor (w : World) (op : AppliedOperation) : Prop :=
  op.idempotencyKey.isEmpty = false ∧ ∃ r, w.log.entry op.idempotencyKey = some r ∧ r.finalStatus = none ∧
    r.requestId = op.requestId ∧ r.payloadHash = op.payloadHash

structure Confirmable (w : World) (op : AppliedOperation) : Prop where
  isOpen : OpenFor w op
  reports : reportsApplied op.terminalResult = true
  reads : ∀ id cmd, w.log.command id = some cmd → cmd.idempotencyKey = op.idempotencyKey →
    readsResult cmd.op op.terminalResult

structure KeepsOnce (node : NodeSetup) (w w' : World) : Prop where
  inv : Once node w'
  kept : LogKept w.log w'.log

section Calls

variable {node : NodeSetup} {me : String} {w : World} {env : Surroundings}

variable {op : AppliedOperation} {key : String} {applied : Option AppliedOperation} {b : ManagementBackend}

theorem OpenFor.recorded (h : OpenFor w op)
    (hJournal : b.commandIdempotency = w.log.backend.commandIdempotency) {w' : World}
    (hBackend : w'.log.backend = b.journalAppliedOutcome op) : AppliedRecorded w' op := by
  obtain ⟨hKey, r, hEntry, hOpen, hId, hHash⟩ := h
  have hEntry : w.log.backend.commandIdempotency.get op.idempotencyKey = some r := hEntry
  refine ⟨r.finish .done op.terminalResult op.appliedAtMs, ?_, ?_⟩
  · rw [LogHistory.entry, hBackend, journalAppliedOutcome, mirrorOutcome_entry, if_pos ⟨rfl, hKey⟩,
      hJournal, hEntry]
    rfl
  · rw [IdempotencyRecord.finish_open hOpen]
    exact ⟨hId, hHash, rfl, rfl⟩

theorem OpenFor.unsettled (h : OpenFor w op) (r : IdempotencyRecord)
    (hEntry : w.log.entry op.idempotencyKey = some r) : r.finalStatus = none := by
  obtain ⟨-, r', hEntry', hOpen, -⟩ := h
  rw [hEntry] at hEntry'
  cases hEntry'
  exact hOpen

theorem raisedBy_cases (w : World) (before after : Nat) (applied : Option AppliedOperation) :
    w.raisedBy before after applied = w.raised ∨
      ∃ op, applied = some op ∧ w.raisedBy before after applied = (op.idempotencyKey, op.payloadHash) :: w.raised := by
  unfold raisedBy
  split
  · cases applied with
    | none => exact .inl rfl
    | some op => exact .inr ⟨op, rfl, rfl⟩
  · exact .inl rfl

section

variable (hInv : Once node w)
include hInv

theorem keepsOnce_silent {c : BackendCall} (hWork : c.isWork = true) (hOutcome : c.outcome = none)
    (hApplied : ∀ op, (w.after env c).lastApplied node.nodeId op → w.lastApplied node.nodeId op)
    (hRaised : (w.after env c).raised = w.raised) : KeepsOnce node w (w.after env c) := by
  obtain ⟨hLog, hKept⟩ := @settle_after node w env c hInv hWork fun key result h => by
    rw [hOutcome] at h
    cases h
  exact ⟨hInv.step hLog hKept (fun op h => .inl (hApplied op h)) (.inl hRaised), hKept⟩

theorem keepsOnce_adopt : KeepsOnce node w (w.after env (.adoptNodeIncarnation node.nodeId me)) := by
  refine keepsOnce_silent hInv rfl rfl (fun op h => ?_) rfl
  obtain ⟨row', hRow', hLast⟩ | ⟨key, row', hRow', hLast⟩ := h
  · have hRow' : (w.log.backend.adoptNodeIncarnation env.now node.nodeId me).runtimeStates.get node.nodeId =
        some row' := hRow'
    rw [adoptNodeIncarnation, HashMap.get_modify, if_pos rfl] at hRow'
    obtain ⟨row, hRow, rfl⟩ := Option.map_eq_some_iff.mp hRow'
    exact .inl ⟨row, hRow, hLast⟩
  · have hRow' : (w.log.backend.adoptNodeIncarnation env.now node.nodeId me).userLimitsStates.get (node.nodeId, key) =
        some row' := hRow'
    rw [adoptNodeIncarnation, HashMap.get_mapValues] at hRow'
    obtain ⟨row, hRow, rfl⟩ := Option.map_eq_some_iff.mp hRow'
    rw [if_pos rfl] at hLast
    exact .inr ⟨key, row, hRow, hLast⟩

theorem keepsOnce_casRuntime {expected : Nat} {desired : RuntimeConfigSnapshot} :
    KeepsOnce node w (w.after env (.casRuntimeDesired node.nodeId expected me desired)) := by
  refine keepsOnce_silent hInv rfl rfl (fun op h => ?_) rfl
  have hCas := @casRuntime w.log.backend env.now node.nodeId me expected desired
  have h : (w.withBackend (w.log.backend.casRuntimeDesired env.now node.nodeId expected me desired).2).lastApplied
    node.nodeId op := h
  generalize w.log.backend.casRuntimeDesired env.now node.nodeId expected me desired = r at hCas h
  cases hCas with
  | insert hVacant hExpected hVersion => exact (lastApplied_runtime h).resolve_left nofun
  | update hGet hObserved hFence => exact (lastApplied_runtime h).elim (fun hSame => .inl ⟨_, hGet, hSame⟩) id
  | refuse => exact h

theorem keepsOnce_casLimits {expected : Nat} {target : UserLimitTarget} {desired : UserLimitsPatch} :
    KeepsOnce node w (w.after env (.casUserLimitsDesired node.nodeId key expected me target desired)) := by
  refine keepsOnce_silent hInv rfl rfl (fun op h => ?_) rfl
  have hCas := @casUserLimits w.log.backend env.now node.nodeId key me expected target desired
  have h : (w.withBackend (w.log.backend.casUserLimitsDesired env.now node.nodeId key expected me target
    desired).2).lastApplied node.nodeId op := h
  generalize w.log.backend.casUserLimitsDesired env.now node.nodeId key expected me target desired = r at hCas h
  cases hCas with
  | insert hVacant hExpected => exact (lastApplied_limits h).resolve_left nofun
  | update hGet hObserved hFence => exact (lastApplied_limits h).elim (fun hSame => .inr ⟨_, _, hGet, hSame⟩) id
  | overflow | refuse => exact h

theorem keepsOnce_reportRuntime {version : Nat} {observed : RuntimeConfigSnapshot} {error : String} :
    KeepsOnce node w (w.after env (.confirmRuntimeObserved node.nodeId version me observed .failed error none)) := by
  refine keepsOnce_silent hInv rfl rfl (fun op h => ?_) rfl
  have hConfirm := @confirmRuntime w.log.backend env.now node.nodeId me version observed .failed error
    none
  have h : (w.withBackend (w.log.backend.confirmRuntimeObserved env.now node.nodeId version me observed .failed error
    none).2).lastApplied node.nodeId op := h
  generalize w.log.backend.confirmRuntimeObserved env.now node.nodeId version me observed .failed error none = r
    at hConfirm h
  cases hConfirm with
  | observe hGet hVersion hIncarnation hStatus => cases hStatus
  | report hGet => exact (lastApplied_runtime h).elim (fun hSame => .inl ⟨_, hGet, hSame⟩) id
  | refuse => exact h

theorem keepsOnce_reportLimits {version : Nat} {observed : UserLimitsPatch} {error : String} : KeepsOnce node w
      (w.after env (.confirmUserLimitsObserved node.nodeId key version me observed .failed error none)) := by
  refine keepsOnce_silent hInv rfl rfl (fun op h => ?_) rfl
  have hConfirm := @confirmUserLimits w.log.backend env.now node.nodeId key me version observed .failed
    error none
  have h : (w.withBackend (w.log.backend.confirmUserLimitsObserved env.now node.nodeId key version me observed .failed
    error none).2).lastApplied node.nodeId op := h
  generalize w.log.backend.confirmUserLimitsObserved env.now node.nodeId key version me observed .failed error none = r
    at hConfirm h
  cases hConfirm with
  | observe hGet hVersion hIncarnation hStatus => cases hStatus
  | report hGet => exact (lastApplied_limits h).elim (fun hSame => .inr ⟨_, _, hGet, hSame⟩) id
  | refuse => exact h

end

theorem lastApplied_journal {nodeId : String}
    (h : (w.withBackend (applied.elim b b.journalAppliedOutcome)).lastApplied nodeId op) :
    (w.withBackend b).lastApplied nodeId op := by
  obtain ⟨journal, hJournal⟩ := journalApplied_eq b applied
  rw [hJournal] at h
  exact h

theorem keepsOnce_confirm (hInv : Once node w) {c : BackendCall}
    {r : Bool × ManagementBackend} (hWork : c.isWork = true)
    (hOutcome : c.outcome = applied.map fun op => (op.idempotencyKey, op.terminalResult))
    (hApplied : ∀ op ∈ applied, Confirmable w op) (hBackend : (w.after env c).log.backend = r.2)
    (hRaised : (w.after env c).raised = w.raised ∨
      (r.1 = true ∧ ∃ before after, (w.after env c).raised = w.raisedBy before after applied))
    (hCase : (∃ b', r = (true, applied.elim b' b'.journalAppliedOutcome) ∧
        b'.commandIdempotency = w.log.backend.commandIdempotency ∧
        ∀ op, (w.withBackend b').lastApplied node.nodeId op → applied = some op ∨ w.lastApplied node.nodeId op) ∨
      r = (false, w.log.backend)) :
    KeepsOnce node w (w.after env c) ∧ (r.1 = true → ∀ op ∈ applied, AppliedRecorded (w.after env c) op) := by
  obtain ⟨hLog, hKept⟩ := @settle_after node w env c hInv hWork fun key result h => by
    rw [hOutcome] at h
    obtain ⟨op, hOp, hSame⟩ := Option.map_eq_some_iff.mp h
    cases hSame
    exact (hApplied op hOp).reads
  generalize w.after env c = w' at *
  have hLast (op : AppliedOperation) (h : w'.lastApplied node.nodeId op) :
      (w.withBackend r.2).lastApplied node.nodeId op := lastApplied_congr (by rw [hBackend]; rfl) (by rw [hBackend]; rfl) h
  obtain ⟨b', rfl, hJournal, hRows⟩ | rfl := hCase
  · have hRecorded (op : AppliedOperation) (hOp : op ∈ applied) : AppliedRecorded w' op := by
      cases hOp
      exact (hApplied op rfl).isOpen.recorded hJournal hBackend
    refine ⟨⟨hInv.step hLog hKept (fun op h => ?_) ?_, hKept⟩, fun _ => hRecorded⟩
    · exact (hRows op (lastApplied_journal (hLast op h))).symm.imp_right (hRecorded op)
    obtain hSame | ⟨-, before, after, hMore⟩ := hRaised
    · exact .inl hSame
    rw [hMore]
    refine (raisedBy_cases w before after applied).imp_right ?_
    rintro ⟨op, hOp, hMore⟩
    exact ⟨op, hMore, hRecorded op hOp, (hApplied op hOp).reports, (hApplied op hOp).isOpen.unsettled⟩
  · exact ⟨⟨hInv.step hLog hKept (fun op h => .inl (hLast op h)) (.inl (hRaised.resolve_right nofun)), hKept⟩, nofun⟩

theorem keepsOnce_observeRuntime (hInv : Once node w) {version : Nat} {observed : RuntimeConfigSnapshot}
    {error : String} (hApplied : ∀ op ∈ applied, Confirmable w op) :
    let w' := w.after env (.confirmRuntimeObserved node.nodeId version me observed .observed error applied)
    KeepsOnce node w w' ∧
      ((w.log.backend.confirmRuntimeObserved env.now node.nodeId version me observed .observed error applied).1 = true →
        ∀ op ∈ applied, AppliedRecorded w' op) := by
  refine keepsOnce_confirm hInv rfl rfl hApplied (after_observeRuntime rfl).1 ?_ ?_
  · simp only [after]
    split
    · next hTrue => exact .inr ⟨hTrue, _, _, rfl⟩
    · exact .inl rfl
  · have hConfirm := @confirmRuntime w.log.backend env.now node.nodeId me version observed .observed
      error applied
    generalize w.log.backend.confirmRuntimeObserved env.now node.nodeId version me observed .observed error applied = r
      at hConfirm
    cases hConfirm with
    | @observe state hGet _ _ _ b' hAfter =>
      subst hAfter
      refine .inl ⟨_, rfl, rfl, fun op h => ?_⟩
      obtain hLast | hOld := lastApplied_runtime h
      · cases applied with
        | none => exact .inr (.inl ⟨state, hGet, hLast⟩)
        | some op' => exact .inl hLast
      · exact .inr hOld
    | report hGet hVersion hIncarnation hStatus => exact absurd rfl hStatus
    | refuse => exact .inr rfl

theorem keepsOnce_observeLimits (hInv : Once node w) {key : String} {version : Nat} {observed : UserLimitsPatch}
    {error : String} (hApplied : ∀ op ∈ applied, Confirmable w op) :
    let w' := w.after env (.confirmUserLimitsObserved node.nodeId key version me observed .observed error applied)
    KeepsOnce node w w' ∧
      ((w.log.backend.confirmUserLimitsObserved env.now node.nodeId key version me observed .observed error
        applied).1 = true → ∀ op ∈ applied, AppliedRecorded w' op) := by
  refine keepsOnce_confirm hInv rfl rfl hApplied (after_observeLimits rfl).1 ?_ ?_
  · simp only [after]
    split
    · next hTrue => exact .inr ⟨hTrue, _, _, rfl⟩
    · exact .inl rfl
  · have hConfirm := @confirmUserLimits w.log.backend env.now node.nodeId key me version observed
      .observed error applied
    generalize w.log.backend.confirmUserLimitsObserved env.now node.nodeId key version me observed .observed error
      applied = r at hConfirm
    cases hConfirm with
    | @observe state hGet _ _ _ b' hAfter =>
      subst hAfter
      refine .inl ⟨_, rfl, rfl, fun op h => ?_⟩
      obtain hLast | hOld := lastApplied_limits h
      · cases applied with
        | none => exact .inr (.inr ⟨key, state, hGet, hLast⟩)
        | some op' => exact .inl hLast
      · exact .inr hOld
    | report hGet hVersion hIncarnation hStatus => exact absurd rfl hStatus
    | refuse => exact .inr rfl

theorem keepsOnce_record (hInv : Once node w) {requestId hash : String} {status : Option CommandStatus}
    {result : ResultText} {at' : Nat}
    (hReads : ∀ id cmd, w.log.command id = some cmd → cmd.idempotencyKey = key → readsResult cmd.op result) :
    KeepsOnce node w (w.after env (.recordCommandOutcome requestId key hash status result at')) := by
  obtain ⟨hLog, hKept⟩ := @settle_after node w env (.recordCommandOutcome requestId key hash status result at') hInv rfl
    fun key' result' h => by
      cases h
      exact hReads
  obtain ⟨hRows, -⟩ := @after_quiet w env (.recordCommandOutcome requestId key hash status result at') rfl
  exact ⟨hInv.step hLog hKept (fun op h => .inl (lastApplied_congr hRows.runtime hRows.limits h)) (.inl rfl), hKept⟩

end Calls

/-! ## The calls of the command loop -/

section Loop

variable {node : NodeSetup} {me : String} {w : World} {env : Surroundings}

theorem keepsOnce_log (hInv : Once node w) {h : LogHistory}
    (hLog : StateBackend.LogAgrees (acceptsCommand node) readsResult h) (hKept : LogKept w.log h)
    (hRuntime : h.backend.runtimeStates = w.log.backend.runtimeStates)
    (hLimits : h.backend.userLimitsStates = w.log.backend.userLimitsStates) :
    KeepsOnce node w { w with log := h } :=
  ⟨hInv.step hLog hKept (fun _ hLast => .inl (@lastApplied_congr w { w with log := h } hRuntime hLimits _ _ hLast))
    (.inl rfl), hKept⟩

theorem finishCommand_rows (b : ManagementBackend) (id : String) (c : PendingCommand) (status : CommandStatus)
    (result : ResultText) (now : Nat) :
    (b.finishCommand id c status result now).runtimeStates = b.runtimeStates ∧
      (b.finishCommand id c status result now).userLimitsStates = b.userLimitsStates := by
  obtain ⟨journal, hAfter⟩ := mirrorOutcome_eq _ c.idempotencyKey status result now
  exact ⟨congrArg (·.runtimeStates) hAfter, congrArg (·.userLimitsStates) hAfter⟩

theorem claimCommands_rows (b : ManagementBackend) (req : ManagementBackend.ClaimRequest) :
    (b.claimCommands req).2.runtimeStates = b.runtimeStates ∧
      (b.claimCommands req).2.userLimitsStates = b.userLimitsStates := by
  refine claimCommands_rec (fun _ acc => acc.2.runtimeStates = b.runtimeStates ∧
    acc.2.userLimitsStates = b.userLimitsStates) ⟨rfl, rfl⟩ ?_
  rintro _ acc id c _ hAcc - - hNext
  cases hNext with
  | skip | claim => exact hAcc
  | deadLetter =>
    obtain ⟨hRuntime, hLimits⟩ := finishCommand_rows acc.2 id c .failed .deadLetter req.now
    exact ⟨hRuntime.trans hAcc.1, hLimits.trans hAcc.2⟩

theorem keepsOnce_claim (hInv : Once node w) {max leaseMs : Nat}
    (hDead : w.log.backend.deadLettersOpen ⟨node.nodeId, me, max, leaseMs, env.now, env.order, env.token⟩ = true) :
    let w' := w.after env (.claimCommands node.nodeId me max leaseMs)
    KeepsOnce node w w' ∧ InProgress w'.log
      (w.log.backend.claimCommands ⟨node.nodeId, me, max, leaseMs, env.now, env.order, env.token⟩).1 := by
  obtain ⟨hLog, hKept, hClaimed⟩ := claim_agrees hInv.log hDead
  obtain ⟨hRuntime, hLimits⟩ := claimCommands_rows w.log.backend
    ⟨node.nodeId, me, max, leaseMs, env.now, env.order, env.token⟩
  exact ⟨keepsOnce_log hInv hLog hKept hRuntime hLimits, hClaimed⟩

def OthersKept (requestId : String) (w w' : World) : Prop :=
  ∀ id c, id ≠ requestId → w.log.command id = some c → w'.log.command id = some c

variable {requestId : String} {result : ResultText}

theorem keepsOnce_finish (hInv : Once node w) {c : PendingCommand}
    (hResult : ∀ r, w.log.entry c.idempotencyKey = some r → r.finalStatus.isSome = true → r.result = result)
    (hGet : w.log.command requestId = some c) (hOpen : c.status.terminal = false) {h : LogHistory}
    (hBackend : h.backend = w.log.backend.finishCommand requestId c .done result env.now)
    (hApply : h.byApply = w.log.byApply) :
    KeepsOnce node w { w with log := h } ∧ OthersKept requestId w { w with log := h } := by
  obtain ⟨hRuntime, hLimits⟩ := finishCommand_rows w.log.backend requestId c .done result env.now
  obtain ⟨hLog, hKept⟩ := hInv.log.finish hGet hOpen rfl hResult hBackend hApply
  rw [← hBackend] at hRuntime hLimits
  refine ⟨keepsOnce_log hInv hLog hKept hRuntime hLimits, fun id c' hNe hGet' => ?_⟩
  rw [LogHistory.command, hBackend]
  exact (finishCommand_command ..).trans ((if_neg hNe).trans hGet')

theorem keepsOnce_complete (hInv : Once node w) {claimedBy token : String}
    (hResult : ∀ c, w.log.command requestId = some c → ∀ r, w.log.entry c.idempotencyKey = some r →
      r.finalStatus.isSome = true → r.result = result) :
    let w' := w.after env (.completeCommand requestId claimedBy token .done result)
    KeepsOnce node w w' ∧ OthersKept requestId w w' := by
  have hHold : KeepsOnce node w w ∧ OthersKept requestId w w := ⟨⟨hInv, .refl _⟩, fun _ _ _ hGet => hGet⟩
  simp only [after, BackendCall.op, Option.elim_some, CommandOp.apply]
  unfold completeCommand
  split
  · exact hHold
  next c hGet =>
  split
  · next hHeld => exact keepsOnce_finish hInv (hResult c hGet) hGet (by rw [hHeld.1]; rfl) rfl rfl
  · exact hHold

theorem keepsOnce_finalize (hInv : Once node w) {incarnation : String}
    (hResult : ∀ c, w.log.command requestId = some c → ∀ r, w.log.entry c.idempotencyKey = some r →
      r.finalStatus.isSome = true → r.result = result) :
    let w' := w.after env (.finalizeStaleCommand requestId incarnation result)
    KeepsOnce node w w' ∧ OthersKept requestId w w' := by
  have hHold : KeepsOnce node w w ∧ OthersKept requestId w w := ⟨⟨hInv, .refl _⟩, fun _ _ _ hGet => hGet⟩
  simp only [after, BackendCall.op, Option.elim_some, CommandOp.apply]
  unfold finalizeStaleCommand
  split
  · exact hHold
  next c hGet =>
  split
  · next hStale =>
    rw [Bool.and_eq_true, Bool.not_eq_true'] at hStale
    exact keepsOnce_finish hInv (hResult c hGet) hGet hStale.1 rfl rfl
  · exact hHold

end Loop

end Turna.Node
