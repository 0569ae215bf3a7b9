import Turna.Node.Synchrony

/-! # The dataplane runs the observed configuration

A node at rest publishes what the backend holds as observed. The change of a command is published before
it is confirmed and taken back when the confirmation reports an error; a confirmation that takes effect and
still reports an error leaves the two apart.
-/

namespace Turna.Node
open Lib StateBackend Config RuntimeManagement Multiset Prog.Meets NodeSetup

def refusesVersion : ResultText → Bool
  | .updateConfig result => result.terminalStatus == .conflict
  | .setUserLimits result => result.terminalStatus == .conflict
  | _ => false

def reportsApplied : ResultText → Bool
  | .updateConfig result => result.terminalStatus == .applied
  | .setUserLimits result => result.terminalStatus == .applied
  | _ => false

structure Fresh (node : NodeSetup) (w : World) (pending : PendingCommand) : Prop where
  journal : ∀ rec, w.log.entry pending.idempotencyKey = some rec → recordedOutcome rec pending.payloadHash = none
  runtime : ∀ row, w.runtimeRow node.nodeId = some row →
    alreadyApplied row.lastApplied pending pending.payloadHash = none
  limits : ∀ key row, w.limitsRow node.nodeId key = some row →
    alreadyApplied row.lastApplied pending pending.payloadHash = none

/-! ## Outcomes in the journal -/

def BackendCall.outcome : BackendCall → Option (String × ResultText)
  | .confirmRuntimeObserved _ _ _ _ .observed _ applied => applied.map fun op => (op.idempotencyKey, op.terminalResult)
  | .confirmUserLimitsObserved _ _ _ _ _ .observed _ applied =>
    applied.map fun op => (op.idempotencyKey, op.terminalResult)
  | .recordCommandOutcome _ key _ _ result _ => some (key, result)
  | _ => none

def BackendCall.isWork : BackendCall → Bool
  | .claimCommands _ _ _ _ => false
  | .completeCommand _ _ _ _ _ => false
  | .finalizeStaleCommand _ _ _ => false
  | _ => true

section Outcomes

variable {w : World} {env : Surroundings} {c : BackendCall}

theorem backend_after (w : World) (env : Surroundings) (c : BackendCall) :
    (w.after env c).log = (c.op env).elim w.log fun op => op.apply w.log := by
  unfold World.after
  split
  · rfl
  · dsimp only
    split <;> rfl
  · dsimp only
    split <;> rfl
  · rfl

/-- The apply point reads, or works on the log without touching a command. -/
theorem work_after (hWork : c.isWork = true) : (w.after env c).log = w.log ∨ ∃ op : CommandOp,
    LogEffects op w.log w.log (w.after env c).log ∧ op.isWork = true ∧ op.CallersKeep w.log ∧ op.NewRequest w.log ∧
      op.outcome = c.outcome := by
  rw [backend_after]
  cases hOp : c.op env with
  | none => exact .inl rfl
  | some op =>
    have hKinds : op.isGc = false ∧ op.isWork = true ∧ op.CallersKeep w.log ∧ op.NewRequest w.log ∧
        op.outcome = c.outcome := by
      cases c with
      | confirmRuntimeObserved _ _ _ _ status | confirmUserLimitsObserved _ _ _ _ _ status =>
        cases hOp
        cases status <;> exact ⟨rfl, rfl, trivial, trivial, rfl⟩
      | _ => cases hOp <;> first | exact ⟨rfl, rfl, trivial, trivial, rfl⟩ | cases hWork
    obtain ⟨hGc, hRest⟩ := hKinds
    exact .inr ⟨op, CommandOp.effects hGc hRest.2.1, hRest⟩

theorem outcome_after (hWork : c.isWork = true) (key : String) :
    Outcome c.outcome key (w.log.entry key) ((w.after env c).log.entry key) := by
  obtain hSame | ⟨op, hEffects, hOp, -, -, hOutcome⟩ := work_after hWork
  · rw [hSame]
    exact .inl rfl
  · rw [← hOutcome]
    exact LogEffects.outcome hOp hEffects key

end Outcomes

/-! ## No refusal is recorded -/

def NoRefusal (key payloadHash : String) (w : World) : Prop :=
  ∀ rec, w.log.entry key = some rec → ∀ body, recordedOutcome rec payloadHash = some body → refusesVersion body = false

def NodeCall.writesNoRefusal : NodeCall → Prop
  | .backend c => c.isWork = true ∧ ∀ key result, c.outcome = some (key, result) → refusesVersion result = false
  | _ => True

theorem writesNothing {c : BackendCall} (hWork : c.isWork = true) (hNone : c.outcome = none) :
    (NodeCall.backend c).writesNoRefusal :=
  ⟨hWork, fun _ _ h => nomatch hNone.symm.trans h⟩

variable {payloadHash : String}

theorem recordedOutcome_finish {r : IdempotencyRecord} (hOpen : r.finalStatus = none) {status : CommandStatus}
    {result body : ResultText} {at' : Nat}
    (h : recordedOutcome (r.finish status result at') payloadHash = some body) : body = result := by
  rw [IdempotencyRecord.finish_open hOpen, recordedOutcome] at h
  split at h
  · exact (Option.some.inj h).symm
  · cases h

theorem NoRefusal.after {key : String} {w : World} {env : Surroundings} {c : BackendCall}
    (h : NoRefusal key payloadHash w) (hKind : (NodeCall.backend c).writesNoRefusal) :
    NoRefusal key payloadHash (w.after env c) := by
  intro rec hEntry body hBody
  obtain hSame | ⟨r, status, result, at', hBefore, hOpen, hOutcome, hFinish⟩ := @outcome_after w env c hKind.1 key
  · exact h rec (hSame ▸ hEntry) body hBody
  rw [hFinish] at hEntry
  cases hEntry
  rw [recordedOutcome_finish hOpen hBody]
  exact hKind.2 key result hOutcome

theorem NoRefusal.perform {key : String} (env : Surroundings) (w : World) (c : NodeCall)
    (hKind : c.writesNoRefusal) (h : NoRefusal key payloadHash w) :
    NoRefusal key payloadHash (Node.perform env w c).2 := by
  cases c with
  | backend c =>
    unfold Node.perform
    cases env.fault with
    | none | after error => exact h.after hKind
    | before error => exact h
  | nowMs | usage target | otherCommand cmd => exact h

section Only

variable {m : RuntimeManagement} {p : Session.Published} {pending : PendingCommand}

theorem only_commitUpdate {snapshot : RuntimeSnapshot} :
    (m.commitUpdate p pending snapshot).Only NodeCall.writesNoRefusal := by
  refine ⟨writesNothing rfl rfl, fun answer => ?_⟩
  rcases answer with error | _ | _
  · trivial
  · trivial
  · refine ⟨trivial, fun now => ⟨⟨rfl, fun _ _ h => ?_⟩, fun answer => ?_⟩⟩
    · cases h
      rfl
    rcases answer with error | _ | _
    · exact ⟨writesNothing rfl rfl, fun _ => trivial⟩
    · exact ⟨writesNothing rfl rfl, fun _ => trivial⟩
    · trivial

theorem only_evaluateUpdate {command : UpdateConfigCommand} :
    (m.evaluateUpdate p pending command).Only NodeCall.writesNoRefusal := by
  unfold evaluateUpdate
  simp only
  split
  · trivial
  split
  · trivial
  · trivial
  · split
    · trivial
    · exact only_commitUpdate

theorem only_confirmLimits {target : UserLimitTarget} {previousVersion : Nat}
    {previousPatch candidate : UserLimitsPatch} :
    (m.confirmLimits p pending target previousVersion previousPatch candidate).Only NodeCall.writesNoRefusal := by
  unfold confirmLimits
  simp only
  split
  · exact ⟨writesNothing rfl rfl, fun _ => trivial⟩
  split
  · trivial
  refine ⟨trivial, fun used => ⟨trivial, fun now => ⟨⟨rfl, fun _ _ h => ?_⟩, fun answer => ?_⟩⟩⟩
  · cases h
    rfl
  rcases answer with error | _ | _
  · exact ⟨writesNothing rfl rfl, fun _ => trivial⟩
  · exact ⟨writesNothing rfl rfl, fun _ => trivial⟩
  · trivial

theorem only_evaluateLimits {command : SetUserLimitsCommand} {state : Option UserLimitsState} :
    (m.evaluateLimits p pending command state).Only NodeCall.writesNoRefusal := by
  unfold evaluateLimits
  simp only
  split
  · exact ⟨trivial, fun _ => trivial⟩
  split
  · exact ⟨trivial, fun _ => trivial⟩
  split
  · trivial
  refine ⟨writesNothing rfl rfl, fun answer => ?_⟩
  rcases answer with error | _ | _
  · trivial
  · exact ⟨trivial, fun _ => trivial⟩
  · exact only_confirmLimits

end Only

/-! ## A command alone -/

abbrev MeetsAlone (node : NodeSetup) (me : String) (ok : World → NodeCall → Surroundings → Prop) {α : Type}
    (p : Manage α) (post : α → World → Prop) (w : World) : Prop :=
  p.Meets (nodeDiscipline node me ok).alone post w

section Alone

variable {node : NodeSetup} {me : String} {ok : World → NodeCall → Surroundings → Prop} {w : World}
  {p : Session.Published} {pending : PendingCommand} {α : Type} {post : α → World → Prop}

variable {c : BackendCall} {next : Except BackendError c.Value → Manage α} {status : TerminalStatus} {applies : Prop}

theorem alone_backend (h : Durable node w → ∀ env, ok w (.backend c) env →
      (Durable node (w.after env c) ∧ Guarantee node me w (w.after env c)) ∧
      MeetsAlone node me ok (next (c.answer env w.log.backend)) post (w.after env c) ∧
      (∀ error, env.fault = .before error → MeetsAlone node me ok (next (.error error)) post w) ∧
      ∀ error, env.fault = .after error →
        MeetsAlone node me ok (next (.error error)) post (w.after env c)) :
    MeetsAlone node me ok (.call (.backend c) next) post w := by
  rintro w' rfl hInv env hOk
  obtain ⟨⟨hInv', hGuar⟩, hDone, hBefore, hAfter⟩ := h hInv env hOk
  show Durable node (perform env w (.backend c)).2 ∧ Guarantee node me w (perform env w (.backend c)).2 ∧
    MeetsAlone node me ok (next (perform env w (.backend c)).1) post (perform env w (.backend c)).2
  unfold perform
  cases hFault : env.fault with
  | none => exact ⟨hInv', hGuar, hDone⟩
  | before error => exact ⟨hInv, (SameRows.refl w).guarantee rfl, hBefore error hFault⟩
  | after error => exact ⟨hInv', hGuar, hAfter error hFault⟩

theorem alone_quiet (hQuiet : c.quiet = true)
    (h : ∀ env w', (w' = w.after env c ∨ w' = w) → ok w (.backend c) env → ∀ answer,
      (answer = c.answer env w.log.backend ∨ (∃ error, answer = .error error) ∧ env.fault ≠ .none) →
        MeetsAlone node me ok (next answer) post w') :
    MeetsAlone node me ok (.call (.backend c) next) post w := by
  refine alone_backend fun hInv env hOk => ?_
  obtain ⟨hSame, hCurrent⟩ := @after_quiet w env c hQuiet
  refine ⟨⟨hInv.congr hSame hCurrent, hSame.guarantee hCurrent⟩, h env _ (.inl rfl) hOk _ (.inl rfl), ?_, ?_⟩
  · intro error hFault
    exact h env w (.inr rfl) hOk _ (.inr ⟨⟨error, rfl⟩, hFault ▸ nofun⟩)
  · intro error hFault
    exact h env _ (.inl rfl) hOk _ (.inr ⟨⟨error, rfl⟩, hFault ▸ nofun⟩)

theorem alone_read (hQuiet : c.quiet = true) (hRead : ∀ env, w.after env c = w)
    (h : ∀ env, ok w (.backend c) env → ∀ answer,
      (answer = c.answer env w.log.backend ∨ (∃ error, answer = .error error) ∧ env.fault ≠ .none) →
        MeetsAlone node me ok (next answer) post w) :
    MeetsAlone node me ok (.call (.backend c) next) post w := by
  refine alone_quiet hQuiet fun env w' hAfter hOk answer hAnswer => ?_
  rw [hRead, or_self] at hAfter
  exact hAfter ▸ h env hOk answer hAnswer

theorem alone_done {a : α} (h : post a w) : MeetsAlone node me ok (.done a) post w := by
  rintro w' rfl _
  exact h

theorem alone_durableReplay {T : Type} (decode : ResultText → Option T) (hFresh : Fresh node w pending) :
    MeetsAlone node me ok (durableReplay decode pending pending.payloadHash)
      (fun stored w' => stored = none ∧ w' = w) w := by
  unfold durableReplay
  split
  · exact alone_done ⟨rfl, rfl⟩
  refine alone_read rfl (fun _ => rfl) fun env _ answer hAnswer => ?_
  rcases answer with error | _ | rec
  · exact alone_done ⟨rfl, rfl⟩
  · exact alone_done ⟨rfl, rfl⟩
  · refine alone_done ⟨?_, rfl⟩
    obtain hAnswer | ⟨⟨error, hError⟩, -⟩ := hAnswer
    · rw [hFresh.journal rec (Except.ok.inj hAnswer).symm]
      rfl
    · cases hError

theorem alone_storedTerminalResult {last : Option AppliedOperation} (hFresh : Fresh node w pending)
    (hLast : alreadyApplied last pending pending.payloadHash = none) :
    MeetsAlone node me ok (storedTerminalResult last pending pending.payloadHash)
      (fun stored w' => stored = none ∧ w' = w) w := by
  unfold storedTerminalResult
  rw [hLast]
  simp only
  split
  · exact alone_done ⟨rfl, rfl⟩
  refine alone_read rfl (fun _ => rfl) fun env _ answer hAnswer => ?_
  rcases answer with error | _ | rec
  · exact alone_done ⟨rfl, rfl⟩
  · exact alone_done ⟨rfl, rfl⟩
  · refine alone_done ⟨?_, rfl⟩
    obtain hAnswer | ⟨⟨error, hError⟩, -⟩ := hAnswer
    · exact hFresh.journal rec (Except.ok.inj hAnswer).symm
    · cases hError

theorem Fresh.noRefusal (hFresh : Fresh node w pending) : NoRefusal pending.idempotencyKey pending.payloadHash w := by
  intro rec hEntry body hBody
  rw [hFresh.journal rec hEntry] at hBody
  cases hBody

theorem alone_recordTerminalOutcome {outcome : TerminalStatus} {status : CommandStatus} {body : ResultText}
    (hBody : refusesVersion body = false) (h : NoRefusal pending.idempotencyKey pending.payloadHash w) :
    MeetsAlone node me ok (recordTerminalOutcome pending outcome status body)
      (fun recorded _ => ∀ body, recorded = .durable body → refusesVersion body = false) w := by
  have hFresh {w' : World} : MeetsAlone node me ok (.done (RecordedOutcome.durable body)) (fun recorded _ => ∀ body, recorded = .durable body → refusesVersion body = false)
      w' :=
    alone_done fun body' h => by cases h; exact hBody
  unfold recordTerminalOutcome
  split
  · exact hFresh
  rintro w' rfl hInv env hOk
  refine ⟨hInv, (SameRows.refl w).guarantee rfl, ?_⟩
  refine alone_quiet rfl fun env w' hAfter _ answer _ => ?_
  have hKept : NoRefusal pending.idempotencyKey pending.payloadHash w' := by
    obtain rfl | rfl := hAfter
    · exact h.after ⟨rfl, fun _ _ hOutcome => by cases hOutcome; exact hBody⟩
    · exact h
  cases answer with
  | ok _ => exact hFresh
  | error error =>
    refine alone_read rfl (fun _ => rfl) fun env _ answer hAnswer => ?_
    rcases answer with error | _ | rec
    · exact alone_done nofun
    · exact alone_done nofun
    · simp only [Prog.bind]
      split
      · next body' hRecorded =>
        obtain hAnswer | ⟨⟨error, hError⟩, -⟩ := hAnswer
        · refine alone_done fun _ h => ?_
          cases h
          exact hKept rec (Except.ok.inj hAnswer).symm body' hRecorded
        · cases hError
      · exact alone_done nofun

structure Answered (me : String) (ok : World → NodeCall → Surroundings → Prop) (applies : Prop)
    (status : TerminalStatus) (w : World) : Prop where
  noRefusal : w.current = me → status ≠ .conflict
  applied : w.current = me → Reliable ok → applies → status = .applied

theorem Ends.answered {kept known applies' : Prop}
    (h : Ends node me ok kept known applies p status w) (hKnown : known) (hApplies : applies' → applies) :
    Answered me ok applies' status w where
  noRefusal hMe := ((h hMe).2 hKnown).1
  applied hMe hReliable hApplies' := ((h hMe).2 hKnown).2 hReliable (hApplies hApplies')

theorem answered_of_not (hStatus : status ≠ .conflict)
    (hNot : ¬ (Reliable ok ∧ applies)) : Answered me ok applies status w :=
  ⟨fun _ => hStatus, fun _ hReliable hApplies => absurd ⟨hReliable, hApplies⟩ hNot⟩

structure UpdateAccepted (node : NodeSetup) (me : String) (p : Session.Published) (pending : PendingCommand)
    (command : UpdateConfigCommand) : Prop where
  schema : command.schemaVersion = commandSchemaVersion
  target : (node.management me).checkCommandTarget pending = .ok ()
  applies : UpdateApplies node p command

theorem alone_applyUpdateConfigInner (rules : CallRules node me ok) (hShows : Shows node me p w)
    (hFresh : Fresh node w pending) {command : UpdateConfigCommand}
    (hParse : node.parseUpdateConfig pending.payloadJson = .ok command)
    (hKnown : command.expectedVersion = p.runtime.version) :
    MeetsAlone node me ok ((node.management me).applyUpdateConfigInner p pending)
      (fun r w => Answered me ok (UpdateAccepted node me p pending command) r.1.terminalStatus w ∧
        NoRefusal pending.idempotencyKey pending.payloadHash w) w := by
  have hFails {r : UpdateConfigResult} (hStatus : r.terminalStatus ≠ .conflict)
      (hNot : ¬ (Reliable ok ∧ UpdateAccepted node me p pending command)) :
      MeetsAlone node me ok (.done (r, p))
        (fun r w => Answered me ok (UpdateAccepted node me p pending command) r.1.terminalStatus w ∧
          NoRefusal pending.idempotencyKey pending.payloadHash w) w :=
    alone_done ⟨answered_of_not hStatus hNot, hFresh.noRefusal⟩
  refine bind ((alone_durableReplay _ hFresh).mono ?_)
  rintro stored w' - ⟨rfl, rfl⟩
  have hParse : (node.management me).parseUpdateConfig pending.payloadJson = .ok command := hParse
  simp only [hParse]
  split
  · next hSchema => exact hFails nofun fun h => hSchema h.2.schema
  split
  · next error hTarget =>
    refine hFails nofun fun h => ?_
    rw [h.2.target] at hTarget
    cases hTarget
  refine alone_read rfl (fun _ => rfl) fun env hOk answer hAnswer => ?_
  cases answer with
  | error error =>
    refine hFails nofun fun h => ?_
    obtain hAnswer | ⟨-, hFault⟩ := hAnswer
    · cases hAnswer
    · exact hFault (h.1 _ _ _ hOk)
  | ok state =>
    obtain hAnswer | ⟨⟨error, hError⟩, -⟩ := hAnswer
    · cases hAnswer
      have hLast : alreadyApplied ((w'.log.backend.getRuntimeState node.nodeId).bind NodeRuntimeState.lastApplied) pending
          pending.payloadHash = none := by
        cases hRow : w'.log.backend.getRuntimeState node.nodeId with
        | none => rfl
        | some row => exact hFresh.runtime row hRow
      simp only [Prog.bind]
      refine bind ((alone_storedTerminalResult hFresh hLast).mono ?_)
      rintro stored w'' - ⟨rfl, rfl⟩
      refine ((meets_evaluateUpdate rules hShows).alone.keeps only_evaluateUpdate NoRefusal.perform
        hFresh.noRefusal).mono fun r w _ h => ⟨h.1.answered hKnown UpdateAccepted.applies, h.2⟩
    · cases hError

theorem refusesVersion_update {result : UpdateConfigResult} (h : result.terminalStatus ≠ .conflict) :
    refusesVersion (.updateConfig result) = false :=
  beq_eq_false_iff_ne.mpr h

theorem refusesVersion_limits {result : SetUserLimitsResult} (h : result.terminalStatus ≠ .conflict) :
    refusesVersion (.setUserLimits result) = false :=
  beq_eq_false_iff_ne.mpr h

structure Accepted (ok : World → NodeCall → Surroundings → Prop) (applies : Prop)
    (answer : Option (CommandStatus × ResultText)) : Prop where
  noRefusal : ∀ status body, answer = some (status, body) → refusesVersion body = false
  applied : Reliable ok → applies → ∃ body, answer = some (.done, body) ∧ reportsApplied body = true

theorem alone_report {result : ResultText} (hRefuses : w.current = me → refusesVersion result = false)
    (hApplied : w.current = me → Reliable ok → applies → status = .applied)
    (hResult : status = .applied → reportsApplied result = true)
    (hJournal : NoRefusal pending.idempotencyKey pending.payloadHash w) :
    MeetsAlone node me ok (recordTerminalOutcome pending status .done result >>= fun recorded =>
      match recorded with
      | .durable body => pure (some (.done, body), p)
      | .retryLater => pure (none, p))
        (fun r w => w.current = me → Accepted ok applies r.1) w := by
  refine bind ?_
  by_cases hMe : w.current = me
  · by_cases hStatus : status = .applied
    · rw [recordTerminalOutcome, if_pos (.inl hStatus)]
      refine alone_done (alone_done fun _ => ⟨fun _ _ h => ?_, fun _ _ => ⟨result, rfl, hResult hStatus⟩⟩)
      cases h
      exact hRefuses hMe
    · refine (alone_recordTerminalOutcome (hRefuses hMe) hJournal).mono fun recorded w' _ hRecorded => ?_
      have hNot (hReliable : Reliable ok) (hApplies : applies) : False := hStatus (hApplied hMe hReliable hApplies)
      cases recorded with
      | durable body =>
        refine alone_done fun _ => ⟨fun _ _ h => ?_, fun hReliable hApplies => (hNot hReliable hApplies).elim⟩
        cases h
        exact hRecorded body rfl
      | retryLater =>
        exact alone_done fun _ => ⟨(fun _ _ h => nomatch h), fun hReliable hApplies => (hNot hReliable hApplies).elim⟩
  · refine (leavesRows_recordTerminalOutcome _ _ _ _ w).alone.mono fun recorded w' _ hRely => ?_
    have hFenced (hMe' : w'.current = me) : False := hMe (hRely hMe').1
    cases recorded with
    | durable body | retryLater => exact alone_done fun hMe' => (hFenced hMe').elim

theorem alone_applyUpdateConfig (rules : CallRules node me ok) (hShows : Shows node me p w)
    (hFresh : Fresh node w pending) {command : UpdateConfigCommand}
    (hParse : node.parseUpdateConfig pending.payloadJson = .ok command)
    (hKnown : command.expectedVersion = p.runtime.version) :
    MeetsAlone node me ok ((node.management me).applyUpdateConfig p pending)
      (fun r w => w.current = me → Accepted ok (UpdateAccepted node me p pending command) r.1) w := by
  refine bind ((alone_applyUpdateConfigInner rules hShows hFresh hParse hKnown).mono ?_)
  rintro ⟨result, p'⟩ w' - ⟨hAnswered, hJournal⟩
  exact alone_report (fun hMe => refusesVersion_update (hAnswered.noRefusal hMe)) hAnswered.applied
    (fun hStatus => beq_iff_eq.mpr hStatus) hJournal

/-- A command for this incarnation that changes the observed patch of its subject. -/
structure LimitsAccepted (node : NodeSetup) (me : String) (w : World) (p : Session.Published) (pending : PendingCommand)
    (command : SetUserLimitsCommand) : Prop where
  valid : (node.management me).checkLimitsCommand pending command = .ok ()
  applies : LimitsApply p (w.limitsVersion node.nodeId command.target.subjectKey)
    (w.observedPatch node.nodeId command.target.subjectKey) command.patch

section

variable {command : SetUserLimitsCommand} (rules : CallRules node me ok) (hInv : Durable node w) (hShows : Shows node me p w)
    (hFresh : Fresh node w pending) (hParse : node.parseSetUserLimits pending.payloadJson = .ok command)
    (hKnown : command.expectedVersion = w.limitsVersion node.nodeId command.target.subjectKey)
include rules hInv hShows hFresh hParse hKnown

theorem alone_applySetUserLimitsInner :
    MeetsAlone node me ok ((node.management me).applySetUserLimitsInner p pending)
      (fun r w' => Answered me ok (LimitsAccepted node me w p pending command) r.1.terminalStatus w' ∧
        NoRefusal pending.idempotencyKey pending.payloadHash w') w := by
  have hFails {r : SetUserLimitsResult} (hStatus : r.terminalStatus ≠ .conflict)
      (hNot : ¬ (Reliable ok ∧ LimitsAccepted node me w p pending command)) :
      MeetsAlone node me ok (.done (r, p))
        (fun r w' => Answered me ok (LimitsAccepted node me w p pending command) r.1.terminalStatus w' ∧
          NoRefusal pending.idempotencyKey pending.payloadHash w') w :=
    alone_done ⟨answered_of_not hStatus hNot, hFresh.noRefusal⟩
  refine bind ((alone_durableReplay _ hFresh).mono ?_)
  rintro stored w' - ⟨rfl, rfl⟩
  have hParse : (node.management me).parseSetUserLimits pending.payloadJson = .ok command := hParse
  simp only [hParse]
  split
  · next error hCheck =>
    refine hFails nofun fun h => ?_
    rw [h.2.valid] at hCheck
    cases hCheck
  next hCheck =>
  obtain ⟨hTarget, hPatch⟩ := checkLimitsCommand_ok hCheck
  refine alone_read rfl (fun _ => rfl) fun env hOk answer hAnswer => ?_
  cases answer with
  | error error =>
    refine hFails nofun fun h => ?_
    obtain hAnswer | ⟨-, hFault⟩ := hAnswer
    · cases hAnswer
    · exact hFault (h.1 _ _ _ hOk)
  | ok state =>
    obtain hAnswer | ⟨⟨error, hError⟩, -⟩ := hAnswer
    · cases hAnswer
      have hLast : alreadyApplied ((w'.log.backend.getUserLimitsState node.nodeId command.target.subjectKey).bind
          UserLimitsState.lastApplied) pending pending.payloadHash = none := by
        cases hRow : w'.log.backend.getUserLimitsState node.nodeId command.target.subjectKey with
        | none => rfl
        | some row => exact hFresh.limits _ row hRow
      simp only [Prog.bind]
      refine bind ((alone_storedTerminalResult hFresh hLast).mono ?_)
      rintro stored w'' - ⟨rfl, rfl⟩
      refine ((meets_evaluateLimits rules hShows hTarget hPatch (hInv.plain _) fun _ => rfl).alone.keeps
        only_evaluateLimits NoRefusal.perform hFresh.noRefusal).mono fun r w _ h => ⟨?_, h.2⟩
      exact h.1.answered hKnown LimitsAccepted.applies
    · cases hError

theorem alone_applySetUserLimits :
    MeetsAlone node me ok ((node.management me).applySetUserLimits p pending)
      (fun r w' => w'.current = me → Accepted ok (LimitsAccepted node me w p pending command) r.1) w := by
  refine bind ((alone_applySetUserLimitsInner rules hInv hShows hFresh hParse hKnown).mono ?_)
  rintro ⟨result, p'⟩ w' - ⟨hAnswered, hJournal⟩
  exact alone_report (fun hMe => refusesVersion_limits (hAnswered.noRefusal hMe)) hAnswered.applied
    (fun hStatus => beq_iff_eq.mpr hStatus) hJournal

end

def updateAnswer (node : NodeSetup) (me : String) (w : World) (p : Session.Published) (pending : PendingCommand)
    (envs : ℕ → Surroundings) : Option (CommandStatus × ResultText) :=
  (((node.management me).applyUpdateConfig p pending).run perform envs w).1.1

def limitsAnswer (node : NodeSetup) (me : String) (w : World) (p : Session.Published) (pending : PendingCommand)
    (envs : ℕ → Surroundings) : Option (CommandStatus × ResultText) :=
  (((node.management me).applySetUserLimits p pending).run perform envs w).1.1

/-- No new command made for the observed version is refused as a version conflict. -/
structure NotRefused (node : NodeSetup) (me : String) (w : World) (p : Session.Published) : Prop where
  updateConfig : ∀ pending command envs, Fresh node w pending →
    node.parseUpdateConfig pending.payloadJson = .ok command → command.expectedVersion = w.runtimeVersion node.nodeId →
      ∀ status body, updateAnswer node me w p pending envs = some (status, body) → refusesVersion body = false
  setUserLimits : ∀ pending command envs, Fresh node w pending →
    node.parseSetUserLimits pending.payloadJson = .ok command →
    command.expectedVersion = w.limitsVersion node.nodeId command.target.subjectKey →
      ∀ status body, limitsAnswer node me w p pending envs = some (status, body) → refusesVersion body = false

/-- Every acceptable new command made for the observed version is applied if no call fails. -/
structure CanApply (node : NodeSetup) (me : String) (w : World) (p : Session.Published) : Prop where
  updateConfig : ∀ pending command envs, Fresh node w pending →
    node.parseUpdateConfig pending.payloadJson = .ok command → command.expectedVersion = w.runtimeVersion node.nodeId →
    UpdateAccepted node me p pending command → (∀ n, (envs n).fault = .none) →
      ∃ body, updateAnswer node me w p pending envs = some (.done, body) ∧ reportsApplied body = true
  setUserLimits : ∀ pending command envs, Fresh node w pending →
    node.parseSetUserLimits pending.payloadJson = .ok command →
    command.expectedVersion = w.limitsVersion node.nodeId command.target.subjectKey →
    LimitsAccepted node me w p pending command → (∀ n, (envs n).fault = .none) →
      ∃ body, limitsAnswer node me w p pending envs = some (.done, body) ∧ reportsApplied body = true

def whileCurrent (me : String) (fails : Bool) (w : World) (_ : NodeCall) (env : Surroundings) : Prop :=
  w.current = me ∧ (fails = false → env.fault = .none)

theorem callRules_whileCurrent (hMe : me.isEmpty = false) (fails : Bool) :
    CallRules node me (whileCurrent me fails) :=
  ⟨hMe, fun hOk hNot => absurd hOk.1 hNot, fun hOk hNot => absurd hOk.1 hNot⟩

theorem reliable_whileCurrent : Reliable (whileCurrent me false) := fun _ _ _ hOk => hOk.2 rfl

theorem run_whileCurrent {fails : Bool} {prog : Manage α} {envs : ℕ → Surroundings}
    (h : prog.Meets (nodeDiscipline node me (whileCurrent me fails)).alone (fun a w => w.current = me → post a w) w)
    (hInv : Durable node w) (hCurrent : w.current = me) (hFault : fails = false → ∀ n, (envs n).fault = .none) :
    post (prog.run perform envs w).1 (prog.run perform envs w).2 := by
  obtain ⟨hWithin, hStays⟩ := h.within hInv (fun w => w.current = me) hCurrent
    (fun {s s'} hStart hGuar => hGuar.fenced.elim id fun hSame => hSame.1.trans hStart)
    (fun n _ _ hMe => ⟨hMe, fun hFails => hFault hFails n⟩)
  exact h.run hInv hWithin hStays

section

variable (hSynced : Synced node w p) (hInv : Durable node w)
include hSynced hInv

theorem Synced.runtimeVersion : w.runtimeVersion node.nodeId = p.runtime.version := by
  obtain ⟨row, hRow, -⟩ := hSynced.runtime
  rw [← hSynced.version hInv hRow, World.runtimeVersion, hRow]
  rfl

theorem Synced.notRefused (hMe : me.isEmpty = false) (hCurrent : w.current = me) : NotRefused node me w p := by
  have rules := @callRules_whileCurrent node me hMe true
  constructor
  · intro pending command envs hFresh hParse hVersion
    have hMeets := alone_applyUpdateConfig rules (fun _ => hSynced) hFresh hParse
      (hVersion.trans (hSynced.runtimeVersion hInv))
    exact (run_whileCurrent hMeets hInv hCurrent nofun).noRefusal
  · intro pending command envs hFresh hParse hVersion
    have hMeets := alone_applySetUserLimits rules hInv (fun _ => hSynced) hFresh hParse hVersion
    exact (run_whileCurrent hMeets hInv hCurrent nofun).noRefusal

theorem Synced.canApply (hMe : me.isEmpty = false) (hCurrent : w.current = me) : CanApply node me w p := by
  have rules := @callRules_whileCurrent node me hMe false
  constructor
  · intro pending command envs hFresh hParse hVersion hAccepted hFault
    have hMeets := alone_applyUpdateConfig rules (fun _ => hSynced) hFresh hParse
      (hVersion.trans (hSynced.runtimeVersion hInv))
    exact (run_whileCurrent hMeets hInv hCurrent fun _ => hFault).applied reliable_whileCurrent hAccepted
  · intro pending command envs hFresh hParse hVersion hAccepted hFault
    have hMeets := alone_applySetUserLimits rules hInv (fun _ => hSynced) hFresh hParse hVersion
    exact (run_whileCurrent hMeets hInv hCurrent fun _ => hFault).applied reliable_whileCurrent hAccepted

end

end Alone

/-! ## Runs -/

def NodeSetup.remaining (node : NodeSetup) (proc : Process) : Manage (Option Session.Published) :=
  match proc.phase with
  | .booting limits => node.bootProg proc.incarnation limits
  | .running prog => prog
  | .idle p => .done (some p)
  | .exited => .done none

def NodeSetup.nextCall (node : NodeSetup) (proc : Process) : Option NodeCall :=
  match node.remaining proc with
  | .call c _ => some c
  | .done _ => none

def Task.incarnation? : Task → Option String
  | .process proc => some proc.incarnation
  | .request _ _ => none

section Steps

variable {node : NodeSetup} {w w' : World} {proc proc' : Process} {move : Move}

theorem remaining_of (incarnation : String) (prog : Manage (Option Session.Published)) :
    node.remaining ⟨incarnation, .of prog⟩ = prog := by
  cases prog with
  | done result => cases result <;> rfl
  | call c next => rfl

theorem nextCall_of_remaining {c : NodeCall} {next : c.Answer → Manage (Option Session.Published)}
    (h : node.remaining proc = @Prog.call nodeService _ c next) : node.nextCall proc = some c := by
  rw [nextCall, h]

inductive Advances (node : NodeSetup) (w : World) (proc : Process) : Move → World → Process → Prop where
  | call {env : Surroundings} {c : NodeCall} {next : c.Answer → Manage (Option Session.Published)}
      (hRemaining : node.remaining proc = @Prog.call nodeService _ c next) :
      Advances node w proc (.call env) (perform env w c).2 ⟨proc.incarnation, .of (next (perform env w c).1)⟩
  | begin {job : Job} {p : Session.Published} (hIdle : proc.phase = .idle p) :
      Advances node w proc (.begin job) w ⟨proc.incarnation, .of (node.jobProg proc.incarnation p job)⟩

theorem advances (h : node.advance w proc move = some (w', proc')) : Advances node w proc move w' proc' := by
  unfold advance at h
  cases move with
  | call env =>
    simp only at h
    split at h
    · next c next hProg =>
      cases h
      refine .call ?_
      unfold prog at hProg
      unfold remaining
      cases hPhase : proc.phase with
      | booting limits | running prog =>
        rw [hPhase] at hProg
        exact Option.some.inj hProg
      | idle p | exited =>
        rw [hPhase] at hProg
        cases hProg
    · cases h
  | «begin» job =>
    simp only at h
    split at h
    · next p hPhase =>
      cases h
      exact .begin hPhase
    · cases h

theorem process_advances {task' : Task} (h : (managementMachine node).advance move w (.process proc) = some (w', task')) :
    ∃ proc', task' = .process proc' ∧ Advances node w proc move w' proc' := by
  obtain ⟨⟨w₁, proc'⟩, hStep, hSame⟩ := Option.map_eq_some_iff.mp h
  cases hSame
  exact ⟨proc', rfl, advances hStep⟩

theorem starts (h : (managementMachine node).start w (.process proc) = some w') :
    ∃ limits, proc.phase = .booting limits ∧ proc.incarnation.isEmpty = false ∧ proc.incarnation ∉ w.started ∧
      w' = { w with started := proc.incarnation :: w.started } := by
  obtain ⟨incarnation, phase⟩ := proc
  cases phase with
  | booting limits =>
    simp only [managementMachine] at h
    split at h
    · cases h
    next hKnown =>
    cases h
    rw [Bool.or_eq_true, not_or, Bool.not_eq_true, List.contains_iff_mem] at hKnown
    exact ⟨limits, rfl, hKnown.1, hKnown.2, rfl⟩
  | running prog | idle p | exited => cases h

end Steps

/-- Every process meets the discipline of its incarnation, and no two share one. -/
structure Governed (node : NodeSetup) (ok : String → World → NodeCall → Surroundings → Prop)
    (post : String → Option Session.Published → World → Prop) (w : World) (tasks : Multiset Task) : Prop where
  durable : Durable node w
  meets : ∀ proc, .process proc ∈ tasks → (node.remaining proc).Meets
    (nodeDiscipline node proc.incarnation (ok proc.incarnation)) (post proc.incarnation) w
  nonempty : ∀ proc, .process proc ∈ tasks → proc.incarnation.isEmpty = false
  started : ∀ incarnation ∈ tasks.filterMap Task.incarnation?, incarnation ∈ w.started
  distinct : (tasks.filterMap Task.incarnation?).Nodup

namespace Governed

variable {node : NodeSetup} {ok : String → World → NodeCall → Surroundings → Prop}
  {post : String → Option Session.Published → World → Prop} {w w' : World} {tasks rest : Multiset Task}
  {proc proc' : Process}

theorem initial (hDurable : Durable node w) : Governed node ok post w 0 where
  durable := hDurable
  meets _ hMem := absurd hMem (notMem_zero _)
  nonempty _ hMem := absurd hMem (notMem_zero _)
  started _ hMem := absurd hMem (notMem_zero _)
  distinct := nodup_zero

theorem rely_of_guarantee {me other : String} (hNe : other ≠ me) (h : Guarantee node me w w') :
    (nodeDiscipline node other (ok other)).rely w w' := by
  intro hOther
  obtain hMe | ⟨hCurrent, hSame⟩ := h.fenced
  · exact absurd (hOther.symm.trans hMe) hNe
  · exact ⟨hCurrent.symm.trans hOther, hSame⟩

theorem done (h : Governed node ok post w tasks) {result : Option Session.Published} (hMem : .process proc ∈ tasks)
    (hDone : node.remaining proc = .done result) : post proc.incarnation result w := by
  have hMeets := h.meets proc hMem
  rw [hDone] at hMeets
  exact hMeets w (fun hMe => ⟨hMe, .refl w⟩) h.durable

variable {incarnation : String}

theorem atRest (h : Governed node ok (AtRest node) w tasks) {p : Session.Published}
    (hMem : .process ⟨incarnation, .idle p⟩ ∈ tasks) : Shows node incarnation p w := by
  intro hMe
  obtain ⟨p', hResult, hSynced⟩ := h.done hMem rfl hMe
  cases hResult
  exact hSynced

theorem incarnations_cons (proc : Process) (rest : Multiset Task) :
    (Task.process proc ::ₘ rest).filterMap Task.incarnation? = proc.incarnation ::ₘ rest.filterMap Task.incarnation? :=
  filterMap_cons_some Task.incarnation? (.process proc) rest rfl

theorem other_ne (h : Governed node ok post w (.process proc ::ₘ rest)) {other : Process} (hMem : .process other ∈ rest) :
    other.incarnation ≠ proc.incarnation := by
  have hDistinct := h.distinct
  rw [incarnations_cons, nodup_cons] at hDistinct
  intro hEq
  exact hDistinct.1 (hEq ▸ (mem_filterMap _ _).mpr ⟨_, hMem, rfl⟩)

theorem advance (h : Governed node ok post w (.process proc ::ₘ rest)) (hDurable : Durable node w')
    (hGuar : Guarantee node proc.incarnation w w') (hStarted : w'.started = w.started)
    {prog : Manage (Option Session.Published)}
    (hMeets : prog.Meets (nodeDiscipline node proc.incarnation (ok proc.incarnation)) (post proc.incarnation) w') :
    Governed node ok post w' (.process ⟨proc.incarnation, .of prog⟩ ::ₘ rest) where
  durable := hDurable
  meets other hMem := by
    obtain hOther | hMem := mem_cons.mp hMem
    · cases hOther
      rw [remaining_of]
      exact hMeets
    · exact (h.meets other (mem_cons_of_mem hMem)).stable (rely_of_guarantee (h.other_ne hMem) hGuar)
  nonempty other hMem := by
    obtain hOther | hMem := mem_cons.mp hMem
    · cases hOther
      exact h.nonempty proc (mem_cons_self _ _)
    · exact h.nonempty other (mem_cons_of_mem hMem)
  started := by
    rw [incarnations_cons, hStarted]
    exact incarnations_cons proc rest ▸ h.started
  distinct := by
    rw [incarnations_cons]
    exact incarnations_cons proc rest ▸ h.distinct

theorem perform_started (env : Surroundings) (w : World) (c : NodeCall) : (perform env w c).2.started = w.started := by
  have hAfter (c : BackendCall) : (w.after env c).started = w.started := by
    unfold World.after
    split
    · rfl
    · dsimp only
      split <;> rfl
    · dsimp only
      split <;> rfl
    · rfl
  cases c with
  | backend c =>
    unfold perform
    cases env.fault with
    | none | after error => exact hAfter c
    | before error => rfl
  | _ => rfl

theorem call (h : Governed node ok post w (.process proc ::ₘ rest)) {env : Surroundings} {c : NodeCall}
    {next : c.Answer → Manage (Option Session.Published)}
    (hRemaining : node.remaining proc = @Prog.call nodeService _ c next) (hOk : ok proc.incarnation w c env) :
    Guarantee node proc.incarnation w (perform env w c).2 ∧
      Governed node ok post (perform env w c).2 (.process ⟨proc.incarnation, .of (next (perform env w c).1)⟩ ::ₘ rest) := by
  have hMeets := h.meets proc (mem_cons_self _ _)
  rw [hRemaining] at hMeets
  obtain ⟨hDurable, hGuar, hNext⟩ := hMeets w (fun hMe => ⟨hMe, .refl w⟩) h.durable env hOk
  exact ⟨hGuar, h.advance hDurable hGuar (perform_started env w c) hNext⟩

theorem takeUp (h : Governed node ok post w (.process proc ::ₘ rest)) {job : Job} {p : Session.Published}
    (hIdle : proc.phase = .idle p) (rules : CallRules node proc.incarnation (ok proc.incarnation))
    (hFaithful : Faithful (ok proc.incarnation)) (hJob : job.appliesCommand = true)
    (hRoom : ¬ Reliable (ok proc.incarnation) → p.userLimits.generation + 2 < 2 ^ 64)
    (hPost : ∀ r w, post proc.incarnation r w ↔ AtRest node proc.incarnation r w) :
    Governed node ok post w (.process ⟨proc.incarnation, .of (node.jobProg proc.incarnation p job)⟩ ::ₘ rest) := by
  have hRests : node.remaining proc = .done (some p) := by
    rw [remaining, hIdle]
  refine h.advance h.durable ((SameRows.refl w).guarantee rfl) rfl ?_
  refine (meets_jobProg rules hFaithful hJob (fun hMe => ?_) hRoom).mono fun r w _ hRest => (hPost r w).mpr hRest
  obtain ⟨p', hResult, hSynced⟩ := (hPost _ _).mp (h.done (mem_cons_self _ _) hRests) hMe
  cases hResult
  exact hSynced

theorem congr (h : Governed node ok post w tasks) (hSame : SameRows w w') (hCurrent : w'.current = w.current)
    (hStarted : ∀ incarnation ∈ w.started, incarnation ∈ w'.started) : Governed node ok post w' tasks where
  durable := h.durable.congr hSame hCurrent
  meets proc hMem := (h.meets proc hMem).stable fun hMe => ⟨hCurrent.symm.trans hMe, hSame⟩
  nonempty := h.nonempty
  started incarnation hMem := hStarted _ (h.started incarnation hMem)
  distinct := h.distinct

theorem enqueue_rows (b : ManagementBackend) (now : Nat) (cmd : PendingCommand) :
    (b.enqueueCommand now cmd).2.runtimeStates = b.runtimeStates ∧
      (b.enqueueCommand now cmd).2.userLimitsStates = b.userLimitsStates := by
  unfold ManagementBackend.enqueueCommand
  split
  · exact ⟨rfl, rfl⟩
  split
  · split <;> exact ⟨rfl, rfl⟩
  · exact ⟨rfl, rfl⟩

theorem request (h : Governed node ok post w tasks) (now : Nat) (req : EnqueueRequest) :
    Governed node ok post { w with log := CommandOp.apply w.log (.enqueue now req) } (.request now req ::ₘ tasks) := by
  obtain ⟨hRuntime, hLimits⟩ := enqueue_rows w.log.backend now (req.command now)
  have hNext := @congr node ok post w { w with log := CommandOp.apply w.log (.enqueue now req) } tasks h
    ⟨hRuntime, hLimits, rfl, rfl⟩ rfl fun _ hMem => hMem
  have hIncarnations : (Task.request now req ::ₘ tasks).filterMap Task.incarnation? =
      tasks.filterMap Task.incarnation? := filterMap_cons_none _ _ rfl
  constructor
  · exact hNext.durable
  · intro proc hMem
    exact hNext.meets proc ((mem_cons.mp hMem).resolve_left nofun)
  · intro proc hMem
    exact hNext.nonempty proc ((mem_cons.mp hMem).resolve_left nofun)
  · rw [hIncarnations]
    exact hNext.started
  · rw [hIncarnations]
    exact hNext.distinct

theorem boot (h : Governed node ok post w tasks) {limits : DynamicLimits}
    (hNonempty : incarnation.isEmpty = false) (hNew : incarnation ∉ w.started)
    (hMeets : (node.bootProg incarnation limits).Meets (nodeDiscipline node incarnation (ok incarnation))
      (post incarnation) w) :
    Governed node ok post { w with started := incarnation :: w.started }
      (.process ⟨incarnation, .booting limits⟩ ::ₘ tasks) := by
  have hSame : SameRows w { w with started := incarnation :: w.started } := ⟨rfl, rfl, rfl, rfl⟩
  have hNext := h.congr hSame rfl fun _ hMem => List.mem_cons_of_mem _ hMem
  constructor
  · exact hNext.durable
  · intro proc hMem
    obtain hProc | hMem := mem_cons.mp hMem
    · cases hProc
      exact hMeets.stable fun hMe => ⟨hMe, hSame⟩
    · exact hNext.meets proc hMem
  · intro proc hMem
    obtain hProc | hMem := mem_cons.mp hMem
    · cases hProc
      exact hNonempty
    · exact h.nonempty proc hMem
  · intro other hMem
    rw [incarnations_cons] at hMem
    obtain rfl | hMem := mem_cons.mp hMem
    · exact List.mem_cons_self
    · exact List.mem_cons_of_mem _ (h.started other hMem)
  · rw [incarnations_cons, nodup_cons]
    exact ⟨fun hMem => hNew (h.started _ hMem), h.distinct⟩

end Governed

def Task.restsWith (test : String → Session.Published → Bool) : Task → Bool
  | .process ⟨incarnation, .idle p⟩ => test incarnation p
  | _ => false

theorem exists_rests {test : String → Session.Published → Bool} {tasks : List Task}
    (h : tasks.any (Task.restsWith test) = true) :
    ∃ incarnation p, Task.process ⟨incarnation, .idle p⟩ ∈ (tasks : Multiset Task) ∧ test incarnation p = true := by
  obtain ⟨task, hMem, hRests⟩ := List.any_eq_true.mp h
  unfold Task.restsWith at hRests
  split at hRests
  · exact ⟨_, _, mem_coe.mpr hMem, hRests⟩
  · cases hRests

/-! ## Serving -/

structure Serving (node : NodeSetup) (me : String) (w : World) (p : Session.Published) : Prop where
  durable : Durable node w
  nonempty : me.isEmpty = false
  started : me ∈ w.started
  current : w.current = me
  synced : Synced node w p

def appliesCommands : Label Task Move → Bool
  | .start (.request _ _) => true
  | .start (.process _) => false
  | .advance _ (.call _) => true
  | .advance _ (.begin job) => job.appliesCommand

def Fault.isAfter : Fault → Bool
  | .after _ => true
  | _ => false

/-- A confirmation that takes effect says so, and there is room for two more generations. -/
def confirmsFaithfully (node : NodeSetup) : Label Task Move → Bool
  | .advance (.process proc) (.call env) => (node.nextCall proc).all fun c => !c.confirms || !env.fault.isAfter
  | .advance (.process ⟨_, .idle p⟩) (.begin _) => decide (p.userLimits.generation + 2 < 2 ^ 64)
  | _ => true

def faithfulCall (me : String) (w : World) (c : NodeCall) (env : Surroundings) : Prop :=
  w.current = me ∧ (c.confirms = true → env.fault.isAfter = false)

theorem callRules_faithfulCall {node : NodeSetup} {me : String} (hMe : me.isEmpty = false) :
    CallRules node me (faithfulCall me) :=
  ⟨hMe, fun hOk hNot => absurd hOk.1 hNot, fun hOk hNot => absurd hOk.1 hNot⟩

theorem faithful_faithfulCall {me : String} : Faithful (faithfulCall me) := by
  intro w c env hConfirms hOk error hFault
  have hAfter := hOk.2 hConfirms
  rw [hFault] at hAfter
  cases hAfter

structure OneProcess (node : NodeSetup) (me : String) (w : World) (tasks : Multiset Task) : Prop where
  governed : Governed node faithfulCall (AtRest node) w tasks
  current : w.current = me
  only : ∀ proc, .process proc ∈ tasks → proc.incarnation = me

namespace OneProcess

variable {node : NodeSetup} {me : String} {w w' : World} {tasks rest : Multiset Task}

theorem initial {p : Session.Published} (h : Serving node me w p) :
    OneProcess node me w {.process ⟨me, .idle p⟩} where
  governed :=
    { durable := h.durable
      meets := fun proc hMem => by
        cases mem_singleton.mp hMem
        exact meets_done fun w' hSteady _ hMe => ⟨p, rfl, h.synced.transfer (hSteady hMe).2⟩
      nonempty := fun proc hMem => by
        cases mem_singleton.mp hMem
        exact h.nonempty
      started := fun incarnation hMem => by
        cases mem_singleton.mp hMem
        exact h.started
      distinct := nodup_singleton _ }
  current := h.current
  only proc hMem := by
    cases mem_singleton.mp hMem
    rfl

theorem start {task : Task} (h : OneProcess node me w tasks) (hOk : appliesCommands (.start task) = true)
    (hStart : (managementMachine node).start w task = some w') : OneProcess node me w' (task ::ₘ tasks) := by
  cases task with
  | process proc => cases hOk
  | request now req =>
    cases hStart
    refine ⟨h.governed.request now req, h.current, fun proc hMem => ?_⟩
    exact h.only proc ((mem_cons.mp hMem).resolve_left nofun)

theorem advance {task task' : Task} {move : Move} (h : OneProcess node me w (task ::ₘ rest))
    (hOk : appliesCommands (.advance task move) = true) (hFaithful : confirmsFaithfully node (.advance task move) = true)
    (hAdvance : (managementMachine node).advance move w task = some (w', task')) :
    OneProcess node me w' (task' ::ₘ rest) := by
  cases task with
  | request now req => cases hAdvance
  | process proc =>
    obtain ⟨proc', rfl, hStep⟩ := process_advances hAdvance
    have hMe := h.only proc (mem_cons_self _ _)
    have hCurrent : w.current = proc.incarnation := h.current.trans hMe.symm
    have hOnly {phase : Phase} (other : Process)
        (hMem : Task.process other ∈ Task.process ⟨proc.incarnation, phase⟩ ::ₘ rest) : other.incarnation = me := by
      obtain hOther | hMem := mem_cons.mp hMem
      · cases hOther
        exact hMe
      · exact h.only other (mem_cons_of_mem hMem)
    cases hStep with
    | @call env c next hRemaining =>
      have hCall : faithfulCall proc.incarnation w c env := by
        refine ⟨hCurrent, fun hConfirms => ?_⟩
        rw [confirmsFaithfully, nextCall_of_remaining hRemaining, Option.all_some, hConfirms, Bool.not_true,
          Bool.false_or, Bool.not_eq_true'] at hFaithful
        exact hFaithful
      obtain ⟨hGuar, hGoverned⟩ := h.governed.call hRemaining hCall
      refine ⟨hGoverned, ?_, hOnly⟩
      obtain hStays | ⟨hStays, -⟩ := hGuar.fenced
      · exact hStays.trans hMe
      · exact hStays.trans h.current
    | @begin job p hIdle =>
      refine ⟨h.governed.takeUp hIdle (callRules_faithfulCall ?_) faithful_faithfulCall hOk (fun _ => ?_)
        (fun _ _ => Iff.rfl), h.current, hOnly⟩
      · exact h.governed.nonempty proc (mem_cons_self _ _)
      obtain ⟨incarnation, phase⟩ := proc
      cases hIdle
      exact of_decide_eq_true hFaithful

end OneProcess

namespace LostConfirmation

def node : NodeSetup where
  nodeId := "node-a"
  validationCtx := ⟨50000, 50020, false, true⟩
  quota _ := none
  parseUpdateConfig text := if text = "ten" then .ok ⟨1, 0, some 10, none, none⟩ else .error "no such payload"
  parseSetUserLimits _ := .error "no such payload"

def snapshot (version maxAllocations : Nat) : RuntimeConfigSnapshot := ⟨1, version, maxAllocations, 4, 1000⟩

def row : NodeRuntimeState :=
  ⟨"node-a", "boot-1", 0, 0, snapshot 0 20, snapshot 0 20, .observed, "", 0, none⟩

def published : Session.Published := ⟨⟨0, 1000, 4, 20⟩, .empty⟩

def start : World where
  log :=
    { LogHistory.new with
      backend := { ManagementBackend.new with runtimeStates := HashMap.empty.insert "node-a" row } }
  started := ["boot-1"]
  current := "boot-1"
  confirmed := some (snapshot 0 20)
  confirmedLimits := .empty
  raised := []

theorem start_row : start.runtimeRow node.nodeId = some row := HashMap.get_insert_self ..

theorem serving : Serving node "boot-1" start published where
  durable :=
    { runtime := fun row' hRow => by
        cases start_row.symm.trans hRow
        exact ⟨rfl, rfl, ⟨rfl, rfl, .inl rfl⟩, fun s hs => Option.some.inj hs⟩
      present := fun hNone => by
        cases start_row.symm.trans hNone
      limits := fun key row' hRow => by
        cases hRow
      confirmedLimits := fun key => rfl }
  nonempty := rfl
  started := List.mem_singleton_self _
  current := rfl
  synced :=
    { runtime := ⟨row, start_row, rfl, rfl⟩
      limits := fun target => by
        unfold overrideOf
        cases target.scope <;> rfl }

def pending : PendingCommand where
  requestId := "r1"
  targetNodeId := "node-a"
  op := "update_config"
  args := []
  payloadJson := "ten"
  targetIncarnation := "boot-1"
  status := .inProgress
  result := .plain ""
  createdAtMs := 0
  updatedAtMs := 0
  claimedBy := "node-a"
  leaseUntilMs := 0
  attempts := 1
  claimToken := "t"
  idempotencyKey := "key-1"

def call (fault : Fault) : Machine.Choice Task Move :=
  .advance 0 (.call ⟨0, .stored, fun n => String.ofList (Nat.toDigits 10 n), fault, 0, (.done, "")⟩)

def prepared : List (Machine.Choice Task Move) :=
  .advance 0 (.begin (.updateConfig pending)) :: List.replicate 5 (call .none)

def lost : List (Machine.Choice Task Move) :=
  prepared ++ call (.after .timeout) :: List.replicate 4 (call .none)

def confirmed : List (Machine.Choice Task Move) := prepared ++ [call .none]

end LostConfirmation

/-- The dataplane is back at the first version and the backend holds the second as observed. -/
theorem dataplane_behind : ∃ (w : World) (tasks : Multiset Task) (incarnation : String) (p : Session.Published),
    (managementMachine LostConfirmation.node).Reaches (fun _ _ l => appliesCommands l = true)
      (LostConfirmation.start, {.process ⟨"boot-1", .idle LostConfirmation.published⟩}) (w, tasks) ∧
    Serving LostConfirmation.node "boot-1" LostConfirmation.start LostConfirmation.published ∧
    .process ⟨incarnation, .idle p⟩ ∈ tasks ∧ ¬ Synced LostConfirmation.node w p := by
  obtain ⟨w, tasks, hReaches, hSeen⟩ := (managementMachine LostConfirmation.node).exists_reaches_of_exec
    (fun _ _ l => appliesCommands l = true)
    (LostConfirmation.start, [.process ⟨"boot-1", .idle LostConfirmation.published⟩]) LostConfirmation.lost
    (fun w tasks => (w.runtimeRow "node-a").map (fun row => row.observedSnapshot.version) = some 1 ∧
      tasks.any (Task.restsWith fun _ p => p.runtime.version == 0)) (by decide +kernel)
  obtain ⟨incarnation, p, hMem, hPublished⟩ := exists_rests hSeen.2
  refine ⟨w, tasks, incarnation, p, hReaches, LostConfirmation.serving, hMem, fun hSynced => ?_⟩
  obtain ⟨row, hRow, -, hRuntime⟩ := hSynced.runtime
  have hRow : w.runtimeRow "node-a" = some row := hRow
  have hObserved : row.observedSnapshot.version = 1 := by
    rw [hRow] at hSeen
    exact Option.some.inj hSeen.1
  rw [hRuntime] at hPublished
  exact absurd (hObserved.symm.trans (beq_iff_eq.mp hPublished)) (by decide)

theorem dataplane_observed (node : NodeSetup) {me : String} {w₀ w : World} {p₀ : Session.Published}
    {tasks : Multiset Task} (hServing : Serving node me w₀ p₀)
    (hReaches : (managementMachine node).Reaches
      (fun _ _ l => appliesCommands l = true ∧ confirmsFaithfully node l = true) (w₀, {.process ⟨me, .idle p₀⟩})
      (w, tasks)) :
    ∀ incarnation p, .process ⟨incarnation, .idle p⟩ ∈ tasks → Synced node w p ∧ NotRefused node incarnation w p := by
  have hInv : OneProcess node me w tasks := by
    refine hReaches.invariant (OneProcess node me) ?_ ?_ (.initial hServing)
    · exact fun w tasks task w' hInv hOk hStart => hInv.start hOk.1 hStart
    · exact fun w rest task move w' task' hInv hOk hAdvance => hInv.advance hOk.1 hOk.2 hAdvance
  intro incarnation p hMem
  have hCurrent : w.current = incarnation := hInv.current.trans (hInv.only _ hMem).symm
  have hSynced := hInv.governed.atRest hMem hCurrent
  exact ⟨hSynced, hSynced.notRefused hInv.governed.durable (hInv.governed.nonempty _ hMem) hCurrent⟩

theorem dataplane_observed_applied : ∃ (w : World) (tasks : Multiset Task) (incarnation : String) (p : Session.Published),
    p.runtime.version = 1 ∧ .process ⟨incarnation, .idle p⟩ ∈ tasks ∧ Synced LostConfirmation.node w p ∧
      NotRefused LostConfirmation.node incarnation w p := by
  obtain ⟨w, tasks, hReaches, hSeen⟩ := (managementMachine LostConfirmation.node).exists_reaches_of_exec
    (fun _ _ l => appliesCommands l = true ∧ confirmsFaithfully LostConfirmation.node l = true)
    (LostConfirmation.start, [.process ⟨"boot-1", .idle LostConfirmation.published⟩]) LostConfirmation.confirmed
    (fun _ tasks => tasks.any (Task.restsWith fun _ p => p.runtime.version == 1)) (by decide +kernel)
  obtain ⟨incarnation, p, hMem, hVersion⟩ := exists_rests hSeen
  exact ⟨w, tasks, incarnation, p, beq_iff_eq.mp hVersion, hMem,
    dataplane_observed LostConfirmation.node LostConfirmation.serving hReaches incarnation p hMem⟩

end Turna.Node
