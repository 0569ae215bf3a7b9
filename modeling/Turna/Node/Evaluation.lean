import Turna.Node.Recorded

/-! # A command is evaluated while its record is open

The newest process of a node claims commands, applies them, completes them and closes those of earlier
incarnations, and any call may fail, before or after it took effect. A command is evaluated only while its record is
open, and closed with what its record holds.
-/

namespace Turna.Node
open Lib StateBackend Config RuntimeManagement Prog.Meets

/-- Commands and records are there as before; new ones may have come in. -/
structure Later (w w' : World) : Prop where
  commands : ∀ id c, w.log.command id = some c → w'.log.command id = some c
  entries : ∀ key r, w.log.entry key = some r → w'.log.entry key = some r

theorem Later.refl (w : World) : Later w w := ⟨fun _ _ hGet => hGet, fun _ _ hGet => hGet⟩

theorem Later.trans {w w' w'' : World} (h : Later w w') (h' : Later w' w'') : Later w w'' :=
  ⟨fun id c hGet => h'.commands id c (h.commands id c hGet), fun key r hGet => h'.entries key r (h.entries key r hGet)⟩

/-- A settled record is read, and a command with a settled record is not given up on. -/
def World.minds (w : World) (env : Surroundings) : NodeCall → Bool
  | .backend (.getIdempotency key) => !w.log.backend.settled key || decide (env.fault = .none)
  | .backend (.claimCommands nodeId incarnation max leaseMs) =>
    w.log.backend.deadLettersOpen ⟨nodeId, incarnation, max, leaseMs, env.now, env.order, env.token⟩
  | _ => true

/-- Between two calls of the newest process requests may come in, and nothing else happens. -/
def onceDiscipline (node : NodeSetup) : Discipline nodeService World Surroundings where
  perform := perform
  ok w c env := w.minds env c = true
  inv := Once node
  rely := Later
  guar w w' := LogKept w.log w'.log
  rely_refl := .refl
  rely_trans := .trans

abbrev MeetsOnce (node : NodeSetup) {α : Type} (p : Manage α) (post : α → World → Prop) (w : World) : Prop :=
  p.Meets (onceDiscipline node) post w

structure Held (w : World) (cmd : PendingCommand) : Prop where
  row : w.log.command cmd.requestId = some cmd
  isOpen : cmd.status.terminal = false

def Recorded (w : World) (cmd : PendingCommand) (body : ResultText) : Prop :=
  ∃ r, w.log.entry cmd.idempotencyKey = some r ∧ r.finalStatus.isSome = true ∧ r.result = body

def Unrecorded (w : World) (cmd : PendingCommand) : Prop :=
  ∃ r, w.log.entry cmd.idempotencyKey = some r ∧ r.finalStatus = none

def CommandsKept (w w' : World) : Prop := ∀ id c, w.log.command id = some c → w'.log.command id = some c

section Knowledge

variable {node : NodeSetup} {w w' w'' : World} {cmd : PendingCommand} {body : ResultText}

theorem Later.kept (h : Later w w') : CommandsKept w w' := h.commands

theorem CommandsKept.trans (h : CommandsKept w w') (h' : CommandsKept w' w'') : CommandsKept w w'' :=
  fun id c hGet => h' id c (h id c hGet)

theorem Held.kept (h : Held w cmd) (hKept : CommandsKept w w') : Held w' cmd := ⟨hKept _ _ h.row, h.isOpen⟩

theorem Recorded.later (h : Recorded w cmd body) (hLater : Later w w') : Recorded w' cmd body := by
  obtain ⟨r, hEntry, hRest⟩ := h
  exact ⟨r, hLater.entries _ r hEntry, hRest⟩

theorem Unrecorded.later (h : Unrecorded w cmd) (hLater : Later w w') : Unrecorded w' cmd := by
  obtain ⟨r, hEntry, hOpen⟩ := h
  exact ⟨r, hLater.entries _ r hEntry, hOpen⟩

section

variable (h : Held w cmd) (hInv : Once node w)
include h hInv

theorem Held.keyed : cmd.idempotencyKey.isEmpty = false := (hInv.log.own _ cmd h.row).2.1

theorem Held.outcome {r : IdempotencyRecord} (hEntry : w.log.entry cmd.idempotencyKey = some r) :
    (recordedOutcome r cmd.payloadHash = none ∧ r.finalStatus = none) ∨
      (recordedOutcome r cmd.payloadHash = some r.result ∧ r.finalStatus.isSome = true ∧ readsResult cmd.op r.result) := by
  obtain ⟨r', hEntry', -, hHash, -⟩ := hInv.log.record h.row
  rw [hEntry] at hEntry'
  cases hEntry'
  cases hFinal : r.finalStatus with
  | none =>
    left
    rw [recordedOutcome, hFinal]
    exact ⟨rfl, rfl⟩
  | some status =>
    right
    have hSettled : r.finalStatus.isSome = true := by
      rw [hFinal]
      rfl
    refine ⟨?_, rfl, hInv.log.reads _ cmd r h.row hEntry h.isOpen hSettled⟩
    rw [recordedOutcome, hSettled, hHash, beq_self_eq_true]
    rfl

theorem recorded_of_alreadyApplied {last : Option AppliedOperation}
    (hLast : ∀ op, last = some op → AppliedRecorded w op)
    (hApplied : alreadyApplied last cmd cmd.payloadHash = some body) : Recorded w cmd body := by
  unfold alreadyApplied at hApplied
  split at hApplied
  · cases hApplied
  next op =>
  split at hApplied
  · next hMatch =>
    cases hApplied
    obtain ⟨r, hEntry, hId, -, hSettled, hResult⟩ := hLast op rfl
    have hKey : op.idempotencyKey = cmd.idempotencyKey := by
      rw [Bool.or_eq_true, beq_iff_eq, Bool.and_eq_true, Bool.and_eq_true, beq_iff_eq] at hMatch
      obtain hSame | hSame := hMatch
      · have hRow := h.row
        rw [← hSame, ← hId] at hRow
        exact (hInv.log.journal.named _ r cmd hEntry hRow).symm
      · exact hSame.1.2
    exact ⟨r, hKey ▸ hEntry, hSettled, hResult⟩
  · cases hApplied

theorem Held.confirmable (hOpen : Unrecorded w cmd) {version now : Nat}
    {result : ResultText} (hReports : reportsApplied result = true) (hReads : readsResult cmd.op result) :
    Confirmable w (appliedOperation cmd version result now) where
  isOpen := by
    obtain ⟨r, hEntry, hFinal⟩ := hOpen
    obtain ⟨r', hEntry', hId, hHash, -⟩ := hInv.log.record h.row
    rw [hEntry] at hEntry'
    cases hEntry'
    exact ⟨h.keyed hInv, r, hEntry, hFinal, hId, hHash⟩
  reports := hReports
  reads id other hGet hKey := by
    obtain rfl := hInv.log.id_of_key h.row hGet hKey
    rw [h.row] at hGet
    cases hGet
    exact hReads

end

theorem readsResult_update {op : String} (hOp : op = "update_config") (result : UpdateConfigResult) :
    readsResult op (.updateConfig result) := by
  subst hOp
  exact ⟨fun _ => ⟨result, rfl⟩, fun h => absurd h (by decide)⟩

theorem readsResult_limits {op : String} (hOp : op = "set_user_limits") (result : SetUserLimitsResult) :
    readsResult op (.setUserLimits result) := by
  subst hOp
  exact ⟨fun h => absurd h (by decide), fun _ => ⟨result, rfl⟩⟩

end Knowledge

/-! ## Rules for the calls -/

section Rules

variable {node : NodeSetup} {w : World} {α : Type} {post : α → World → Prop}

theorem once_done {a : α} (h : ∀ w', Later w w' → Once node w' → post a w') : MeetsOnce node (.done a) post w := h

variable {c : BackendCall} {next : Except BackendError c.Value → Manage α}

theorem once_backend (h : ∀ w', Later w w' → Once node w' → ∀ env, w'.minds env (.backend c) = true →
      KeepsOnce node w' (w'.after env c) ∧
      MeetsOnce node (next (c.answer env w'.log.backend)) post (w'.after env c) ∧
      ∀ error w'', (w'' = w' ∨ w'' = w'.after env c) → env.fault ≠ .none →
        MeetsOnce node (next (.error error)) post w'') :
    MeetsOnce node (.call (.backend c) next) post w := by
  intro w' hLater hInv env hOk
  obtain ⟨hKeeps, hDone, hFails⟩ := h w' hLater hInv env hOk
  show Once node (perform env w' (.backend c)).2 ∧ LogKept w'.log (perform env w' (.backend c)).2.log ∧
    MeetsOnce node (next (perform env w' (.backend c)).1) post (perform env w' (.backend c)).2
  unfold perform
  cases hFault : env.fault with
  | none => exact ⟨hKeeps.inv, hKeeps.kept, hDone⟩
  | before error => exact ⟨hInv, .refl _, hFails error w' (.inl rfl) (hFault ▸ nofun)⟩
  | after error =>
    exact ⟨hKeeps.inv, hKeeps.kept, hFails error _ (.inr rfl) (hFault ▸ nofun)⟩

theorem once_read (hRead : ∀ env (w : World), w.after env c = w)
    (h : ∀ w', Later w w' → Once node w' → ∀ env, w'.minds env (.backend c) = true → ∀ answer,
      (answer = c.answer env w'.log.backend ∨ (∃ error, answer = .error error) ∧ env.fault ≠ .none) →
        MeetsOnce node (next answer) post w') :
    MeetsOnce node (.call (.backend c) next) post w := by
  refine once_backend fun w' hLater hInv env hOk => ?_
  rw [hRead]
  refine ⟨⟨hInv, .refl _⟩, h w' hLater hInv env hOk _ (.inl rfl), fun error w'' hSame hFault => ?_⟩
  obtain rfl : w'' = w' := hSame.elim id id
  exact h _ hLater hInv env hOk _ (.inr ⟨⟨error, rfl⟩, hFault⟩)

theorem commandsKept_after {c : BackendCall} {env : Surroundings} (hWork : c.isWork = true) :
    CommandsKept w (w.after env c) := by
  intro id cmd hGet
  rw [command_after hWork]
  exact hGet

theorem later_silent (hWork : c.isWork = true) (hOutcome : c.outcome = none) (env : Surroundings)
    (w : World) : Later w (w.after env c) where
  commands := commandsKept_after hWork
  entries key r hEntry := by
    obtain hSame | ⟨r', status, result, at', -, -, hWrites, -⟩ := @outcome_after w env c hWork key
    · exact hSame.trans hEntry
    · rw [hOutcome] at hWrites
      cases hWrites

theorem once_silent (hWork : c.isWork = true)
    (hOutcome : c.outcome = none) (hKeeps : ∀ env w, Once node w → KeepsOnce node w (w.after env c))
    (h : ∀ w', Later w w' → Once node w' → ∀ answer, MeetsOnce node (next answer) post w') :
    MeetsOnce node (.call (.backend c) next) post w := by
  refine once_backend fun w' hLater hInv env _ => ?_
  have hAfter := hLater.trans (later_silent hWork hOutcome env w')
  have hInv' := (hKeeps env w' hInv).inv
  refine ⟨hKeeps env w' hInv, h _ hAfter hInv' _, fun error w'' hSame _ => ?_⟩
  obtain rfl | rfl := hSame
  · exact h _ hLater hInv _
  · exact h _ hAfter hInv' _

theorem once_nowMs {next : Nat → Manage α}
    (h : ∀ w' now, Later w w' → Once node w' → MeetsOnce node (next now) post w') :
    MeetsOnce node (.call .nowMs next) post w :=
  fun w' hLater hInv env _ => ⟨hInv, .refl _, h w' env.now hLater hInv⟩

theorem once_usage {target : UserLimitTarget} {next : Nat → Manage α}
    (h : ∀ w' used, Later w w' → Once node w' → MeetsOnce node (next used) post w') :
    MeetsOnce node (.call (.usage target) next) post w :=
  fun w' hLater hInv env _ => ⟨hInv, .refl _, h w' env.usage hLater hInv⟩

end Rules

/-! ## Replay -/

section Replay

variable {node : NodeSetup} {w : World} {cmd : PendingCommand}

def Looked (cmd : PendingCommand) (w : World) (stored : Option ResultText) (w' : World) : Prop :=
  Later w w' ∧ (∀ body, stored = some body → Recorded w' cmd body ∧ readsResult cmd.op body) ∧
    (stored = none → Unrecorded w' cmd)

theorem Looked.later {w' w'' : World} {stored : Option ResultText} (h : Looked cmd w stored w') (hLater : Later w' w'') :
    Looked cmd w stored w'' := by
  obtain ⟨hBefore, hStored, hOpen⟩ := h
  refine ⟨hBefore.trans hLater, fun body hBody => ?_, fun hNone => (hOpen hNone).later hLater⟩
  exact ⟨(hStored body hBody).1.later hLater, (hStored body hBody).2⟩

theorem looked_some {w' : World} {body : ResultText} (hLater : Later w w') (hRecorded : Recorded w' cmd body)
    (hReads : readsResult cmd.op body) : Looked cmd w (some body) w' := by
  refine ⟨hLater, ?_, nofun⟩
  rintro _ ⟨⟩
  exact ⟨hRecorded, hReads⟩

def storedOutcome (hash : String) : Except BackendError (Option IdempotencyRecord) → Option ResultText
  | .ok (some r) => recordedOutcome r hash
  | _ => none

theorem once_readRecord {α : Type} {next : Except BackendError (Option IdempotencyRecord) → Manage α}
    {post : α → World → Prop} {f : Option ResultText → Manage α}
    (hNext : ∀ answer, next answer = f (storedOutcome cmd.payloadHash answer)) (hHeld : Held w cmd)
    (h : ∀ w' stored, Looked cmd w stored w' → MeetsOnce node (f stored) post w') :
    MeetsOnce node (.call (.backend (.getIdempotency cmd.idempotencyKey)) next) post w := by
  refine once_read (fun _ _ => rfl) fun w' hLater hInv env hOk answer hAnswer => ?_
  have hHeld := hHeld.kept hLater.kept
  obtain ⟨r, hEntry, -⟩ := hInv.log.record hHeld.row
  have hOpen (hFinal : r.finalStatus = none) : Looked cmd w none w' := ⟨hLater, nofun, fun _ => ⟨r, hEntry, hFinal⟩⟩
  obtain rfl := funext hNext
  refine h w' _ ?_
  obtain rfl | ⟨⟨error, rfl⟩, hFault⟩ := hAnswer
  · have hRead : w'.log.backend.getIdempotency cmd.idempotencyKey = some r := hEntry
    show Looked cmd w (storedOutcome _ (.ok (w'.log.backend.getIdempotency cmd.idempotencyKey))) w'
    rw [hRead, storedOutcome]
    obtain ⟨hNone, hFinal⟩ | ⟨hSome, hFinal, hReads⟩ := hHeld.outcome hInv hEntry
    · rw [hNone]
      exact hOpen hFinal
    · rw [hSome]
      exact looked_some hLater ⟨r, hEntry, hFinal, rfl⟩ hReads
  · refine hOpen ?_
    obtain ⟨-, hFinal⟩ | ⟨-, hFinal, -⟩ := hHeld.outcome hInv hEntry
    · exact hFinal
    have hSettled : w'.log.backend.settled cmd.idempotencyKey = true := by
      have hGet : w'.log.backend.commandIdempotency.get cmd.idempotencyKey = some r := hEntry
      rw [ManagementBackend.settled, hGet]
      exact hFinal
    have hOk : w'.minds env (.backend (.getIdempotency cmd.idempotencyKey)) = true := hOk
    rw [World.minds, hSettled, Bool.not_true, Bool.false_or, decide_eq_true_eq] at hOk
    exact absurd hOk hFault

theorem once_durableReplay {T : Type} {decode : ResultText → Option T} (hHeld : Held w cmd) (hInv : Once node w) :
    MeetsOnce node (durableReplay decode cmd cmd.payloadHash)
      (fun result w' => ∃ stored, result = stored.bind decode ∧ Looked cmd w stored w') w := by
  unfold durableReplay
  rw [hHeld.keyed hInv]
  refine once_readRecord (f := fun stored => .done (stored.bind decode)) ?_ hHeld fun w' stored hLooked => ?_
  · rintro (error | _ | r) <;> rfl
  · exact once_done fun w'' hLater _ => ⟨stored, rfl, hLooked.later hLater⟩

theorem once_storedTerminalResult {last : Option AppliedOperation} (hHeld : Held w cmd) (hInv : Once node w)
    (hLast : ∀ op, last = some op → AppliedRecorded w op) :
    MeetsOnce node (storedTerminalResult last cmd cmd.payloadHash)
      (fun stored w' => Looked cmd w stored w') w := by
  unfold storedTerminalResult
  split
  · next stored hApplied =>
    obtain ⟨r, hEntry, hFinal, hResult⟩ := recorded_of_alreadyApplied hHeld hInv hLast hApplied
    have hReads := hInv.log.reads _ cmd r hHeld.row hEntry hHeld.isOpen hFinal
    exact once_done fun w' hLater _ =>
      looked_some hLater (.later ⟨r, hEntry, hFinal, hResult⟩ hLater) (hResult ▸ hReads)
  · rw [hHeld.keyed hInv]
    refine once_readRecord (f := .done) ?_ hHeld fun w' stored hLooked => ?_
    · rintro (error | _ | r) <;> rfl
    · exact once_done fun w'' hLater _ => hLooked.later hLater

end Replay

/-! ## Evaluation -/

/-- How the evaluation of a command ends: a result that reports a change is on record. -/
def Evaluated (cmd : PendingCommand) (w : World) (status : TerminalStatus) (body : ResultText) (w' : World) : Prop :=
  CommandsKept w w' ∧ (status = .applied → Recorded w' cmd body)

section Evaluation

variable {node : NodeSetup} {me : String} {w w' w'' : World} {cmd : PendingCommand} {p : Session.Published}

variable {status : TerminalStatus} {target : UserLimitTarget}

theorem Evaluated.of_ne {body : ResultText} (hKept : CommandsKept w w')
    (h : status ≠ .applied) : Evaluated cmd w status body w' := ⟨hKept, fun hApplied => absurd hApplied h⟩

abbrev UpdateEvaluated (cmd : PendingCommand) (w : World) (r : UpdateConfigResult × Session.Published) (w' : World) :
    Prop :=
  Evaluated cmd w r.1.terminalStatus (.updateConfig r.1) w'

abbrev LimitsEvaluated (cmd : PendingCommand) (w : World) (r : SetUserLimitsResult × Session.Published) (w' : World) :
    Prop :=
  Evaluated cmd w r.1.terminalStatus (.setUserLimits r.1) w'

theorem once_updateRefused {r : UpdateConfigResult × Session.Published} (hKept : CommandsKept w w')
    (hStatus : r.1.terminalStatus ≠ .applied) :
    MeetsOnce node (.done r) (UpdateEvaluated cmd w) w' :=
  once_done fun _ hLater _ => .of_ne (hKept.trans hLater.kept) hStatus

theorem once_limitsRefused {r : SetUserLimitsResult × Session.Published} (hKept : CommandsKept w w')
    (hStatus : r.1.terminalStatus ≠ .applied) :
    MeetsOnce node (.done r) (LimitsEvaluated cmd w) w' :=
  once_done fun _ hLater _ => .of_ne (hKept.trans hLater.kept) hStatus

theorem Once.lastRuntime (hInv : Once node w) (op : AppliedOperation)
    (h : (w.log.backend.getRuntimeState node.nodeId).bind NodeRuntimeState.lastApplied = some op) :
    AppliedRecorded w op := by
  obtain ⟨row, hRow, hLast⟩ := Option.bind_eq_some_iff.mp h
  exact hInv.applied op (.inl ⟨row, hRow, hLast⟩)

theorem Once.lastLimits (hInv : Once node w) {key : String} (op : AppliedOperation)
    (h : (w.log.backend.getUserLimitsState node.nodeId key).bind UserLimitsState.lastApplied = some op) :
    AppliedRecorded w op := by
  obtain ⟨row, hRow, hLast⟩ := Option.bind_eq_some_iff.mp h
  exact hInv.applied op (.inr ⟨_, row, hRow, hLast⟩)

theorem once_commitUpdate {snapshot : RuntimeSnapshot} (hHeld : Held w cmd) (hOpen : Unrecorded w cmd)
    (hOp : cmd.op = "update_config") :
    MeetsOnce node ((node.management me).commitUpdate p cmd snapshot) (UpdateEvaluated cmd w) w := by
  refine once_silent rfl rfl (fun env w' hInv => keepsOnce_casRuntime hInv) fun w₁ hLater₁ hInv₁ answer => ?_
  rcases answer with error | _ | _
  · exact once_updateRefused hLater₁.kept (by rintro ⟨⟩)
  · exact once_updateRefused hLater₁.kept (by rintro ⟨⟩)
  refine once_nowMs fun w₂ now hLater₂ hInv₂ => ?_
  refine once_backend fun w₃ hLater₃ hInv₃ env _ => ?_
  have hLater := hLater₁.trans (hLater₂.trans hLater₃)
  obtain ⟨hKeeps, hRecorded⟩ := @keepsOnce_observeRuntime node me w₃ env
    (some (appliedOperation cmd (backendSnapshot snapshot).version
      (.updateConfig (updateSuccess cmd p.runtime.version (backendSnapshot snapshot))) now))
    hInv₃ (backendSnapshot snapshot).version (backendSnapshot snapshot) "" fun op hMem => by
      cases hMem
      exact (hHeld.kept hLater.kept).confirmable hInv₃ (hOpen.later hLater) rfl (readsResult_update hOp _)
  -- A confirmation that was not given is taken back.
  have hBack (error : String) (w₄ : World) (hKept₄ : CommandsKept w w₄) : MeetsOnce node (do
        let _ ← Call.confirmRuntimeObserved node.nodeId (backendSnapshot snapshot).version me
          (backendSnapshotFromSession p.runtime) .failed error none
        pure (updateFailure (backendSnapshotFromSession p.runtime) .failed error true,
          (p.publishRuntime (sessionRuntime snapshot)).publishRuntime p.runtime) :
        Manage (UpdateConfigResult × Session.Published)) (UpdateEvaluated cmd w) w₄ := by
    refine once_silent rfl rfl (fun env w' hInv => keepsOnce_reportRuntime hInv) fun w₅ hLater₅ _ _ => ?_
    exact once_updateRefused (hKept₄.trans hLater₅.kept) (by rintro ⟨⟩)
  refine ⟨hKeeps, ?_, fun error w₄ hSame _ => ?_⟩
  · show ((Prog.done (Except.ok (w₃.log.backend.confirmRuntimeObserved env.now node.nodeId _ me _ .observed ""
      _).1)).bind _ : Manage (UpdateConfigResult × Session.Published)).Meets _ _ _
    generalize hAnswer : (w₃.log.backend.confirmRuntimeObserved env.now node.nodeId _ me _ .observed "" _).1 = answer
      at hRecorded ⊢
    cases answer with
    | true =>
      refine once_done fun w₅ hLater₅ _ => ⟨?_, fun _ => ?_⟩
      · exact (hLater.kept.trans (commandsKept_after rfl)).trans hLater₅.kept
      · obtain ⟨r, hEntry, -, -, hSettled, hResult⟩ := hRecorded rfl _ rfl
        exact Recorded.later ⟨r, hEntry, hSettled, hResult⟩ hLater₅
    | false => exact hBack _ _ (hLater.kept.trans (commandsKept_after rfl))
  · obtain rfl | rfl := hSame
    · exact hBack _ _ hLater.kept
    · exact hBack _ _ (hLater.kept.trans (commandsKept_after rfl))

theorem once_evaluateUpdate {command : UpdateConfigCommand} (hHeld : Held w cmd) (hOpen : Unrecorded w cmd)
    (hOp : cmd.op = "update_config") :
    MeetsOnce node ((node.management me).evaluateUpdate p cmd command) (UpdateEvaluated cmd w) w := by
  unfold evaluateUpdate
  simp only
  split
  · exact once_updateRefused (Later.refl w).kept nofun
  split
  · exact once_updateRefused (Later.refl w).kept nofun
  · exact once_updateRefused (Later.refl w).kept nofun
  · split
    · exact once_updateRefused (Later.refl w).kept nofun
    · exact once_commitUpdate hHeld hOpen hOp

theorem once_orStored {T : Type} (status : T → TerminalStatus) (body : T → ResultText) {last : Option AppliedOperation}
    {w₀ : World} {next : Option ResultText → Manage (T × Session.Published)} (hHeld : Held w cmd) (hInv : Once node w)
    (hLast : ∀ op, last = some op → AppliedRecorded w op)
    (hKept : CommandsKept w₀ w)
    (hReturn : ∀ stored, readsResult cmd.op stored → ∃ t p, next (some stored) = .done (t, p) ∧ stored = body t)
    (hEvaluate : ∀ w', Held w' cmd → Unrecorded w' cmd →
      MeetsOnce node (next none) (fun r => Evaluated cmd w' (status r.1) (body r.1)) w') :
    MeetsOnce node (storedTerminalResult last cmd cmd.payloadHash >>= next)
      (fun r => Evaluated cmd w₀ (status r.1) (body r.1)) w := by
  refine bind ((once_storedTerminalResult hHeld hInv hLast).mono ?_)
  rintro stored w₁ hInv₁ ⟨hLater₁, hStored, hOpen⟩
  cases stored with
  | none =>
    refine (hEvaluate w₁ (hHeld.kept hLater₁.kept) (hOpen rfl)).mono fun r w₂ _ h => ?_
    exact ⟨hKept.trans (hLater₁.kept.trans h.1), h.2⟩
  | some stored =>
    obtain ⟨hRecorded, hReads⟩ := hStored stored rfl
    obtain ⟨t, p, hNext, rfl⟩ := hReturn stored hReads
    rw [hNext]
    exact once_done fun w₂ hLater₂ _ => ⟨hKept.trans (hLater₁.trans hLater₂).kept, fun _ => hRecorded.later hLater₂⟩

theorem once_orReplayed {T : Type} (status : T → TerminalStatus) (body : T → ResultText)
    {decode : ResultText → Option T} {next : Option T → Manage (T × Session.Published)} (hHeld : Held w cmd)
    (hInv : Once node w)
    (hDecode : ∀ stored, readsResult cmd.op stored → ∃ t, decode stored = some t ∧ stored = body t)
    (hReturn : ∀ t, next (some t) = .done (t, p))
    (hOtherwise : ∀ w', Later w w' → Once node w' →
      MeetsOnce node (next none) (fun r => Evaluated cmd w (status r.1) (body r.1)) w') :
    MeetsOnce node (durableReplay decode cmd cmd.payloadHash >>= next)
      (fun r => Evaluated cmd w (status r.1) (body r.1)) w := by
  refine bind ((once_durableReplay hHeld hInv).mono ?_)
  rintro result w₁ hInv₁ ⟨stored, rfl, hLater₁, hStored, -⟩
  cases stored with
  | none => exact hOtherwise w₁ hLater₁ hInv₁
  | some stored =>
    obtain ⟨hRecorded, hReads⟩ := hStored stored rfl
    obtain ⟨t, hSome, rfl⟩ := hDecode stored hReads
    rw [Option.bind_some, hSome, hReturn]
    exact once_done fun w₂ hLater₂ _ => ⟨(hLater₁.trans hLater₂).kept, fun _ => hRecorded.later hLater₂⟩

variable {stored : ResultText} {requestId : String}

theorem decode_update (hOp : cmd.op = "update_config") (hReads : readsResult cmd.op stored) :
    ∃ r, asUpdateConfig stored = some r ∧ stored = .updateConfig r := by
  obtain ⟨r, rfl⟩ := hReads.1 hOp
  exact ⟨r, rfl, rfl⟩

theorem decode_limits (hOp : cmd.op = "set_user_limits") (hReads : readsResult cmd.op stored) :
    ∃ r, asSetUserLimits stored = some r ∧ stored = .setUserLimits r := by
  obtain ⟨r, rfl⟩ := hReads.2 hOp
  exact ⟨r, rfl, rfl⟩

theorem once_applyUpdateConfigInner (hHeld : Held w cmd) (hInv : Once node w) (hOp : cmd.op = "update_config") :
    MeetsOnce node ((node.management me).applyUpdateConfigInner p cmd) (UpdateEvaluated cmd w) w := by
  unfold applyUpdateConfigInner
  refine once_orReplayed UpdateConfigResult.terminalStatus ResultText.updateConfig hHeld hInv
    (fun _ => decode_update hOp) (fun _ => rfl) fun w₁ hLater₁ _ => ?_
  simp only
  split
  · exact once_updateRefused hLater₁.kept nofun
  split
  · exact once_updateRefused hLater₁.kept nofun
  split
  · exact once_updateRefused hLater₁.kept nofun
  refine once_read (fun _ _ => rfl) fun w₂ hLater₂ hInv₂ env _ answer hAnswer => ?_
  obtain rfl | ⟨⟨error, rfl⟩, -⟩ := hAnswer
  · have hLater := hLater₁.trans hLater₂
    refine once_orStored UpdateConfigResult.terminalStatus ResultText.updateConfig (hHeld.kept hLater.kept) hInv₂
      hInv₂.lastRuntime hLater.kept (fun stored hReads => ?_) fun w₃ hHeld₃ hOpen => once_evaluateUpdate hHeld₃ hOpen hOp
    obtain ⟨r, rfl⟩ := hReads.1 hOp
    exact ⟨r, p, rfl, rfl⟩
  · exact once_updateRefused (hLater₁.trans hLater₂).kept nofun

/-! ### User limits -/

theorem once_limitsReport {error : String} {previous observed : Nat} :
    MeetsOnce node ((node.management me).limitsReport p target requestId previous observed status error)
      (fun r w' => Later w w' ∧ r.terminalStatus = status) w := by
  refine once_usage fun w₁ used hLater₁ _ => ?_
  exact once_done fun w₂ hLater₂ _ => ⟨hLater₁.trans hLater₂, rfl⟩

theorem once_unchangedLimits {error : String} {previous observed : Nat}
    (hKept : CommandsKept w w') (hStatus : status ≠ .applied) :
    MeetsOnce node (do
      let result ← (node.management me).limitsReport p target requestId previous observed status error
      pure (result, p) : Manage (SetUserLimitsResult × Session.Published))
      (LimitsEvaluated cmd w) w' := by
  refine bind (once_limitsReport.mono fun r w₁ _ h => ?_)
  obtain ⟨hLater₁, hSame⟩ := h
  exact once_done fun w₂ hLater₂ _ => .of_ne (hKept.trans (hLater₁.trans hLater₂).kept) (hSame ▸ hStatus)

theorem once_confirmLimits {version : Nat} {previous candidate : UserLimitsPatch}
    (hHeld : Held w cmd) (hOpen : Unrecorded w cmd) (hOp : cmd.op = "set_user_limits") :
    MeetsOnce node ((node.management me).confirmLimits p cmd target version previous candidate)
      (LimitsEvaluated cmd w) w := by
  -- A failure is reported for the prepared patch.
  have hBack (error : String) (q : Session.Published) (w₁ : World) (hKept₁ : CommandsKept w w₁) : MeetsOnce node (do
        let _ ← Call.confirmUserLimitsObserved node.nodeId target.subjectKey (version + 1) me previous .failed error none
        pure (limitsFailure version version error, q) : Manage (SetUserLimitsResult × Session.Published)) (LimitsEvaluated cmd w) w₁ := by
    refine once_silent rfl rfl (fun env w' hInv => keepsOnce_reportLimits hInv) fun w₂ hLater₂ _ _ => ?_
    exact once_limitsRefused (hKept₁.trans hLater₂.kept) (by rintro ⟨⟩)
  unfold confirmLimits
  simp only
  split
  · exact hBack _ _ w (Later.refl w).kept
  split
  · exact once_limitsRefused (Later.refl w).kept (by rintro ⟨⟩)
  next published _ =>
  refine bind (once_limitsReport.mono ?_)
  rintro success w₁ hInv₁ ⟨hLater₁, hSuccess⟩
  refine once_nowMs fun w₂ now hLater₂ hInv₂ => ?_
  refine once_backend fun w₃ hLater₃ hInv₃ env _ => ?_
  have hLater := hLater₁.trans (hLater₂.trans hLater₃)
  obtain ⟨hKeeps, hRecorded⟩ := @keepsOnce_observeLimits node me w₃ env
    (some (appliedOperation cmd (version + 1) (.setUserLimits success) now)) hInv₃ target.subjectKey (version + 1)
    candidate "" fun op hMem => by
      cases hMem
      refine (hHeld.kept hLater.kept).confirmable hInv₃ (hOpen.later hLater) ?_ (readsResult_limits hOp _)
      show (success.terminalStatus == .applied) = true
      rw [hSuccess]
      rfl
  refine ⟨hKeeps, ?_, fun error w₄ hSame _ => ?_⟩
  · show ((Prog.done (Except.ok (w₃.log.backend.confirmUserLimitsObserved env.now node.nodeId _ _ me _ .observed ""
      _).1)).bind _ : Manage (SetUserLimitsResult × Session.Published)).Meets _ _ _
    generalize hAnswer : (w₃.log.backend.confirmUserLimitsObserved env.now node.nodeId _ _ me _ .observed "" _).1 =
      answer at hRecorded ⊢
    cases answer with
    | true =>
      refine once_done fun w₅ hLater₅ _ => ⟨?_, fun _ => ?_⟩
      · exact (hLater.kept.trans (commandsKept_after rfl)).trans hLater₅.kept
      · obtain ⟨r, hEntry, -, -, hSettled, hResult⟩ := hRecorded rfl _ rfl
        exact Recorded.later ⟨r, hEntry, hSettled, hResult⟩ hLater₅
    | false => exact hBack _ _ _ (hLater.kept.trans (commandsKept_after rfl))
  · obtain rfl | rfl := hSame
    · exact hBack _ _ _ hLater.kept
    · exact hBack _ _ _ (hLater.kept.trans (commandsKept_after rfl))

theorem once_evaluateLimits {command : SetUserLimitsCommand} {state : Option UserLimitsState} (hHeld : Held w cmd)
    (hOpen : Unrecorded w cmd) (hOp : cmd.op = "set_user_limits") :
    MeetsOnce node ((node.management me).evaluateLimits p cmd command state) (LimitsEvaluated cmd w) w := by
  unfold evaluateLimits
  simp only
  split
  · exact once_unchangedLimits (Later.refl w).kept nofun
  split
  · exact once_unchangedLimits (Later.refl w).kept nofun
  split
  · exact once_limitsRefused (Later.refl w).kept nofun
  refine once_silent rfl rfl (fun env w' hInv => keepsOnce_casLimits hInv) fun w₁ hLater₁ hInv₁ answer => ?_
  rcases answer with error | _ | _
  · exact once_limitsRefused hLater₁.kept nofun
  · exact once_unchangedLimits hLater₁.kept nofun
  · refine (once_confirmLimits (hHeld.kept hLater₁.kept) (hOpen.later hLater₁) hOp).mono fun r w₂ _ h => ?_
    exact ⟨hLater₁.kept.trans h.1, h.2⟩

theorem once_applySetUserLimitsInner (hHeld : Held w cmd) (hInv : Once node w) (hOp : cmd.op = "set_user_limits") :
    MeetsOnce node ((node.management me).applySetUserLimitsInner p cmd) (LimitsEvaluated cmd w) w := by
  unfold applySetUserLimitsInner
  refine once_orReplayed SetUserLimitsResult.terminalStatus ResultText.setUserLimits hHeld hInv
    (fun _ => decode_limits hOp) (fun _ => rfl) fun w₁ hLater₁ _ => ?_
  simp only
  split
  · exact once_limitsRefused hLater₁.kept nofun
  next command _ =>
  split
  · exact once_limitsRefused hLater₁.kept nofun
  refine once_read (fun _ _ => rfl) fun w₂ hLater₂ hInv₂ env _ answer hAnswer => ?_
  obtain rfl | ⟨⟨error, rfl⟩, -⟩ := hAnswer
  · have hLater := hLater₁.trans hLater₂
    refine once_orStored SetUserLimitsResult.terminalStatus ResultText.setUserLimits (hHeld.kept hLater.kept) hInv₂
      hInv₂.lastLimits hLater.kept (fun stored hReads => ?_) fun w₃ hHeld₃ hOpen => once_evaluateLimits hHeld₃ hOpen hOp
    obtain ⟨r, rfl⟩ := hReads.2 hOp
    exact ⟨r, p, rfl, rfl⟩
  · exact once_limitsRefused (hLater₁.trans hLater₂).kept nofun

end Evaluation

/-! ## The command loop -/

def Closes (cmd : PendingCommand) (w : World) (body : ResultText) : Prop :=
  ∀ r, w.log.entry cmd.idempotencyKey = some r → r.finalStatus.isSome = true → r.result = body

section Loop

variable {node : NodeSetup} {me : String} {w w' : World} {cmd : PendingCommand} {cmds : List PendingCommand}
  {p : Session.Published}

variable {body : ResultText}

theorem Recorded.closes (h : Recorded w cmd body) : Closes cmd w body := by
  obtain ⟨r, hEntry, -, hResult⟩ := h
  intro r' hEntry' _
  rw [hEntry] at hEntry'
  cases hEntry'
  exact hResult

theorem Unrecorded.closes (h : Unrecorded w cmd) : Closes cmd w body := by
  obtain ⟨r, hEntry, hOpen⟩ := h
  intro r' hEntry' hSettled
  rw [hEntry] at hEntry'
  cases hEntry'
  rw [hOpen] at hSettled
  cases hSettled

theorem recordCommandOutcome_ok {b : ManagementBackend} {requestId key hash : String} {status : Option CommandStatus}
    {result : ResultText} {at' : Nat} {answer : Bool} (hKey : key.isEmpty = false)
    (h : (b.recordCommandOutcome requestId key hash status result at').1 = .ok answer) :
    ∃ r, (b.recordCommandOutcome requestId key hash status result at').2.commandIdempotency.get key = some r ∧
      r.finalStatus.isSome = true ∧ r.result = result := by
  generalize hAnswer : b.recordCommandOutcome requestId key hash status result at' = a at h ⊢
  unfold ManagementBackend.recordCommandOutcome at hAnswer
  rw [hKey, if_neg Bool.false_ne_true] at hAnswer
  split at hAnswer
  · cases hAnswer
    cases h
  next r hGet =>
  split at hAnswer
  · cases hAnswer
    cases h
  split at hAnswer
  · cases hAnswer
    cases h
  split at hAnswer
  · next hSettled =>
    split at hAnswer
    · next hSame =>
      cases hAnswer
      exact ⟨r, hGet, hSettled, hSame⟩
    · cases hAnswer
      cases h
  · cases hAnswer
    exact ⟨_, HashMap.get_insert_self .., rfl, rfl⟩

/-- After an error the journal says whether an outcome is on record. -/
theorem once_reread (hHeld : Held w cmd) (hKept : CommandsKept w w') : MeetsOnce node (do
      match ← Call.getIdempotency cmd.idempotencyKey with
      | .ok (some rec) =>
        match recordedOutcome rec cmd.payloadHash with
        | some body => pure (.durable body)
        | none => pure .retryLater
      | .ok none => pure .retryLater
      | .error _ => pure .retryLater : Manage RecordedOutcome)
      (fun outcome w' => CommandsKept w w' ∧ ∀ stored, outcome = .durable stored → Recorded w' cmd stored) w' := by
  refine once_readRecord (f := fun stored => .done (stored.elim .retryLater .durable)) ?_ (hHeld.kept hKept)
    fun w₁ stored hLooked => ?_
  · rintro (error | _ | r)
    · rfl
    · rfl
    · simp only [Prog.bind, storedOutcome]
      cases recordedOutcome r cmd.payloadHash <;> rfl
  refine once_done fun w₂ hLater₂ _ => ⟨hKept.trans (hLooked.later hLater₂).1.kept, ?_⟩
  cases stored with
  | none => rintro _ ⟨⟩
  | some body =>
    rintro _ ⟨⟩
    exact ((hLooked.later hLater₂).2.1 body rfl).1

theorem once_recordTerminalOutcome {status : TerminalStatus} (hHeld : Held w cmd)
    (hInv : Once node w) (hApplied : status = .applied → Recorded w cmd body) (hReads : readsResult cmd.op body) :
    MeetsOnce node (recordTerminalOutcome cmd status .done body)
      (fun outcome w' => CommandsKept w w' ∧ ∀ stored, outcome = .durable stored → Recorded w' cmd stored) w := by
  unfold recordTerminalOutcome
  rw [hHeld.keyed hInv]
  split
  · next hStatus =>
    refine once_done fun w' hLater _ => ⟨hLater.kept, fun stored hSame => ?_⟩
    cases hSame
    exact (hApplied (hStatus.resolve_right Bool.false_ne_true)).later hLater
  refine once_nowMs fun w₁ now hLater₁ hInv₁ => ?_
  refine once_backend fun w₂ hLater₂ hInv₂ env _ => ?_
  have hLater := hLater₁.trans hLater₂
  have hHeld₂ := hHeld.kept hLater.kept
  have hKept := hLater.kept.trans (@commandsKept_after w₂ (.recordCommandOutcome cmd.requestId cmd.idempotencyKey
    cmd.payloadHash (some .done) body now) env rfl)
  refine ⟨keepsOnce_record hInv₂ fun id other hGet hKey => ?_, ?_, fun error w₃ hSame _ => ?_⟩
  · obtain rfl := hInv₂.log.id_of_key hHeld₂.row hGet hKey
    rw [hHeld₂.row] at hGet
    cases hGet
    exact hReads
  · have hStored := @recordCommandOutcome_ok w₂.log.backend cmd.requestId cmd.idempotencyKey cmd.payloadHash
      (some .done) body now
    show ((Prog.done (w₂.log.backend.recordCommandOutcome cmd.requestId cmd.idempotencyKey cmd.payloadHash (some .done)
      body now).1).bind _ : Manage RecordedOutcome).Meets _ _ _
    generalize hAnswer : (w₂.log.backend.recordCommandOutcome cmd.requestId cmd.idempotencyKey cmd.payloadHash
      (some .done) body now).1 = answer at hStored ⊢
    cases answer with
    | ok accepted =>
      refine once_done fun w₃ hLater₃ _ => ⟨hKept.trans hLater₃.kept, fun stored hSame => ?_⟩
      cases hSame
      have hRecorded : Recorded (w₂.after env (.recordCommandOutcome cmd.requestId cmd.idempotencyKey cmd.payloadHash
        (some .done) body now)) cmd body := hStored (hHeld.keyed hInv) rfl
      exact hRecorded.later hLater₃
    | error error => exact once_reread hHeld hKept
  · obtain rfl | rfl := hSame
    · exact once_reread hHeld hLater.kept
    · exact once_reread hHeld hKept

/-- It is to be closed with what is on record, or left to be claimed again. -/
def Applied (cmd : PendingCommand) (w : World) (outcome : Option (CommandStatus × ResultText)) (w' : World) : Prop :=
  CommandsKept w w' ∧ ∀ status body, outcome = some (status, body) → status = .done ∧ Recorded w' cmd body

theorem Held.accepted (h : Held w cmd) (hInv : Once node w) : acceptsCommand node cmd.op cmd.payloadJson :=
  (hInv.log.own _ cmd h.row).2.2

theorem once_recorded {status : TerminalStatus} {q : Session.Published} (hHeld : Held w cmd)
    (hEvaluated : Evaluated cmd w status body w') (hInv : Once node w') (hReads : readsResult cmd.op body) :
    MeetsOnce node (do
      match ← recordTerminalOutcome cmd status .done body with
      | .durable body => pure (some (.done, body), q)
      | .retryLater => pure (none, q) : Manage (Option (CommandStatus × ResultText) × Session.Published)) (fun r => Applied cmd w r.1) w' := by
  refine bind ((once_recordTerminalOutcome (hHeld.kept hEvaluated.1) hInv hEvaluated.2 hReads).mono ?_)
  rintro outcome w₁ hInv₁ ⟨hKept₁, hDurable⟩
  have hKept := hEvaluated.1.trans hKept₁
  cases outcome with
  | durable stored =>
    refine once_done fun w₂ hLater₂ _ => ⟨hKept.trans hLater₂.kept, fun status body hSame => ?_⟩
    cases hSame
    exact ⟨rfl, (hDurable _ rfl).later hLater₂⟩
  | retryLater => exact once_done fun w₂ hLater₂ _ => ⟨hKept.trans hLater₂.kept, (fun _ _ h => nomatch h)⟩

theorem once_applyCommand (hHeld : Held w cmd) (hInv : Once node w) :
    MeetsOnce node ((node.management me).applyCommand p cmd) (fun r => Applied cmd w r.1) w := by
  obtain hOp | ⟨hOp, -⟩ := hHeld.accepted hInv
  · simp only [applyCommand, hOp]
    refine bind ((once_applyUpdateConfigInner hHeld hInv hOp).mono fun r w₁ hInv₁ hEvaluated => ?_)
    exact once_recorded hHeld hEvaluated hInv₁ (readsResult_update hOp _)
  simp only [applyCommand, hOp]
  refine bind ((once_applySetUserLimitsInner hHeld hInv hOp).mono fun r w₁ hInv₁ hEvaluated => ?_)
  exact once_recorded hHeld hEvaluated hInv₁ (readsResult_limits hOp _)

/-! ### Lists of commands -/

theorem held_of_inProgress (h : InProgress w.log cmds) (hMem : cmd ∈ cmds) : Held w cmd :=
  ⟨(h.held cmd hMem).1, (h.held cmd hMem).2⟩

theorem inProgress_kept (h : InProgress w.log cmds) (hKept : CommandsKept w w') : InProgress w'.log cmds :=
  ⟨h.distinct, fun c hMem => ⟨hKept _ _ (h.held c hMem).1, (h.held c hMem).2⟩⟩

theorem inProgress_tail (h : InProgress w.log (cmd :: cmds)) : InProgress w.log cmds :=
  ⟨(List.nodup_cons.mp h.distinct).2, fun c hMem => h.held c (List.mem_cons_of_mem _ hMem)⟩

theorem inProgress_others (h : InProgress w.log (cmd :: cmds)) (hOthers : OthersKept cmd.requestId w w') :
    InProgress w'.log cmds := by
  have hTail := inProgress_tail h
  refine ⟨hTail.distinct, fun c hMem => ⟨hOthers _ c (fun hSame => ?_) (hTail.held c hMem).1, (hTail.held c hMem).2⟩⟩
  exact (List.nodup_cons.mp h.distinct).1 (hSame ▸ List.mem_map_of_mem hMem)

/-- Step lemma: a command is closed with what its record holds. -/
theorem once_close {α : Type} {post : α → World → Prop} {c : BackendCall}
    {next : Except BackendError c.Value → Manage α} (hProgress : InProgress w.log (cmd :: cmds))
    (hKeeps : ∀ env w', Later w w' → Once node w' →
      KeepsOnce node w' (w'.after env c) ∧ OthersKept cmd.requestId w' (w'.after env c))
    (h : ∀ w' answer, Once node w' → InProgress w'.log cmds → MeetsOnce node (next answer) post w') :
    MeetsOnce node (.call (.backend c) next) post w := by
  refine once_backend fun w₁ hLater₁ hInv₁ env _ => ?_
  obtain ⟨hKeeps, hOthers⟩ := hKeeps env w₁ hLater₁ hInv₁
  have hProgress₁ := inProgress_kept hProgress hLater₁.kept
  have hRest := inProgress_others hProgress₁ hOthers
  refine ⟨hKeeps, h _ _ hKeeps.inv hRest, fun error w₂ hSame _ => ?_⟩
  obtain rfl | rfl := hSame
  · exact h _ _ hInv₁ (inProgress_tail hProgress₁)
  · exact h _ _ hKeeps.inv hRest

theorem Closes.later (h : Closes cmd w body) (hHeld : Held w cmd) (hInv : Once node w)
    (hLater : Later w w') : Closes cmd w' body := by
  obtain ⟨r, hEntry, -⟩ := hInv.log.record hHeld.row
  intro r' hEntry' hSettled
  rw [hLater.entries _ r hEntry] at hEntry'
  cases hEntry'
  exact h r hEntry hSettled

theorem once_applyClaimed (hInv : Once node w) (hProgress : InProgress w.log cmds) :
    MeetsOnce node ((node.management me).applyClaimed p cmds) (fun _ _ => True) w := by
  induction cmds generalizing w p with
  | nil => exact once_done fun _ _ _ => trivial
  | cons cmd cmds ih =>
    have hHeld := held_of_inProgress hProgress List.mem_cons_self
    refine bind ((once_applyCommand hHeld hInv).mono ?_)
    rintro ⟨outcome, q⟩ w₁ hInv₁ ⟨hKept₁, hOutcome⟩
    have hProgress₁ := inProgress_kept hProgress hKept₁
    cases outcome with
    | none => exact ih hInv₁ (inProgress_tail hProgress₁)
    | some outcome =>
      obtain ⟨status, body⟩ := outcome
      obtain ⟨rfl, hRecorded⟩ := hOutcome status body rfl
      refine once_close hProgress₁ (fun env w₂ hLater₂ hInv₂ => keepsOnce_complete hInv₂ fun c hGet => ?_)
        fun w₂ _ hInv₂ hRest => ih hInv₂ hRest
      rw [((hHeld.kept hKept₁).kept hLater₂.kept).row] at hGet
      cases hGet
      exact (hRecorded.later hLater₂).closes

theorem once_staleResult (hHeld : Held w cmd) (hInv : Once node w) :
    MeetsOnce node ((node.management me).staleResult p cmd)
      (fun result w' => Later w w' ∧ ∀ body, result = some body → Closes cmd w' body) w := by
  have hNone (w₁ : World) (hLater₁ : Later w w₁) : MeetsOnce node (.done none)
      (fun result w' => Later w w' ∧ ∀ body : ResultText, result = some body → Closes cmd w' body) w₁ :=
    once_done fun w₂ hLater₂ _ => ⟨hLater₁.trans hLater₂, nofun⟩
  -- A stored outcome is the recorded one, and without one the record is open.
  have hLook (last : Option AppliedOperation) (next : Option ResultText → Manage (Option ResultText))
      (hSome : ∀ stored, next (some stored) = .done (some stored))
      (hElse : ∃ fallback, next none = .done (some fallback))
      (w₁ : World) (hLater₁ : Later w w₁) (hInv₁ : Once node w₁) (hLast : ∀ op, last = some op → AppliedRecorded w₁ op) :
      MeetsOnce node (storedTerminalResult last cmd cmd.payloadHash >>= next)
        (fun result w' => Later w w' ∧ ∀ body, result = some body → Closes cmd w' body) w₁ := by
    refine bind ((once_storedTerminalResult (hHeld.kept hLater₁.kept) hInv₁ hLast).mono ?_)
    rintro stored w₂ hInv₂ ⟨hLater₂, hStored, hOpen⟩
    have hLater := hLater₁.trans hLater₂
    cases stored with
    | some stored =>
      rw [hSome]
      refine once_done fun w₃ hLater₃ _ => ⟨hLater.trans hLater₃, fun body hBody => ?_⟩
      cases hBody
      exact ((hStored _ rfl).1.later hLater₃).closes
    | none =>
      obtain ⟨fallback, hElse⟩ := hElse
      rw [hElse]
      refine once_done fun w₃ hLater₃ _ => ⟨hLater.trans hLater₃, fun body _ => ?_⟩
      exact ((hOpen rfl).later hLater₃).closes
  obtain hOp | ⟨hOp, command, hParse⟩ := hHeld.accepted hInv
  · simp only [staleResult, hOp]
    refine once_read (fun _ _ => rfl) fun w₁ hLater₁ hInv₁ env _ answer hAnswer => ?_
    obtain rfl | ⟨⟨error, rfl⟩, -⟩ := hAnswer
    · show (storedTerminalResult _ _ _ >>= _ : Manage _).Meets _ _ _
      refine hLook _ _ ?_ ?_ w₁ hLater₁ hInv₁ hInv₁.lastRuntime
      · exact fun _ => rfl
      · exact ⟨_, rfl⟩
    · exact hNone w₁ hLater₁
  · have hParse : (node.management me).parseSetUserLimits cmd.payloadJson = .ok command := hParse
    simp only [staleResult, hOp, staleSetUserLimitsResult, hParse]
    refine once_read (fun _ _ => rfl) fun w₁ hLater₁ hInv₁ env _ answer hAnswer => ?_
    obtain rfl | ⟨⟨error, rfl⟩, -⟩ := hAnswer
    · show (storedTerminalResult _ _ _ >>= _ : Manage _).Meets _ _ _
      refine hLook _ _ ?_ ?_ w₁ hLater₁ hInv₁ hInv₁.lastLimits
      · exact fun _ => rfl
      · exact ⟨_, rfl⟩
    · exact hNone w₁ hLater₁

theorem once_sweepEach (hInv : Once node w) (hProgress : InProgress w.log cmds) :
    MeetsOnce node ((node.management me).sweepEach p cmds) (fun _ _ => True) w := by
  induction cmds generalizing w with
  | nil => exact once_done fun _ _ _ => trivial
  | cons cmd cmds ih =>
    have hHeld := held_of_inProgress hProgress List.mem_cons_self
    refine bind ((once_staleResult hHeld hInv).mono ?_)
    rintro result w₁ hInv₁ ⟨hLater₁, hCloses⟩
    have hProgress₁ := inProgress_kept hProgress hLater₁.kept
    cases result with
    | none => exact ih hInv₁ (inProgress_tail hProgress₁)
    | some body =>
      have hHeld₁ := hHeld.kept hLater₁.kept
      refine once_close hProgress₁ (fun env w₂ hLater₂ hInv₂ => keepsOnce_finalize hInv₂ fun c hGet => ?_)
        fun w₂ answer hInv₂ hRest => ?_
      · rw [(hHeld₁.kept hLater₂.kept).row] at hGet
        cases hGet
        exact (hCloses body rfl).later hHeld₁ hInv₁ hLater₂
      rcases answer with error | _ | _
      · exact ih hInv₂ hRest
      · exact ih hInv₂ hRest
      · show ((node.management me).sweepEach p cmds >>= _ : Manage Nat).Meets _ _ _
        exact bind ((ih hInv₂ hRest).mono fun n w₃ _ _ => fun _ _ _ => trivial)

theorem once_sweepStaleCommands :
    MeetsOnce node ((node.management me).sweepStaleCommands p) (fun _ _ => True) w := by
  refine once_read (fun _ _ => rfl) fun w₁ hLater₁ hInv₁ env _ answer hAnswer => ?_
  obtain rfl | ⟨⟨error, rfl⟩, -⟩ := hAnswer
  · exact once_sweepEach hInv₁ (hInv₁.log.stale ..)
  · exact once_done fun _ _ _ => trivial

theorem once_commandTick : MeetsOnce node ((node.management me).commandTick p) (fun _ _ => True) w := by
  refine once_backend fun w₁ hLater₁ hInv₁ env hMinds => ?_
  obtain ⟨hKeeps, hProgress⟩ := @keepsOnce_claim node me w₁ env hInv₁ 32 commandLeaseMs hMinds
  refine ⟨hKeeps, ?_, fun error w₂ _ _ => once_done fun _ _ _ => trivial⟩
  show ((node.management me).applyClaimed p _ >>= _ : Manage _).Meets _ _ _
  refine bind ((once_applyClaimed hKeeps.inv hProgress).mono fun q w₂ hInv₂ _ => ?_)
  exact bind (once_sweepStaleCommands.mono fun n w₃ _ _ => fun _ _ _ => trivial)

end Loop

/-! ## Restore -/

section Restore

variable {node : NodeSetup} {me : String} {w : World} {p : Session.Published}

theorem once_restoreEach {states : List UserLimitsState} :
    MeetsOnce node ((node.management me).restoreEach p states) (fun _ _ => True) w := by
  induction states generalizing w p with
  | nil => exact once_done fun _ _ _ => trivial
  | cons state states ih =>
    unfold restoreEach
    split
    · exact once_done fun _ _ _ => trivial
    split
    · exact once_silent rfl rfl (fun env w' hInv => keepsOnce_reportLimits hInv) fun _ _ _ _ => ih
    · exact ih

theorem once_restoreLimits : MeetsOnce node ((node.management me).restoreLimits p) (fun _ _ => True) w := by
  refine once_read (fun _ _ => rfl) fun w₁ hLater₁ hInv₁ env _ answer hAnswer => ?_
  rcases answer with error | states
  · exact once_done fun _ _ _ => trivial
  · exact once_restoreEach

theorem once_restoreRuntime {state : NodeRuntimeState} :
    MeetsOnce node ((node.management me).restoreRuntime state p) (fun _ _ => True) w := by
  unfold restoreRuntime
  split
  · exact once_done fun _ _ _ => trivial
  split
  · exact once_done fun _ _ _ => trivial
  simp only
  split
  · exact once_silent rfl rfl (fun env w' hInv => keepsOnce_reportRuntime hInv) fun _ _ _ _ => fun _ _ _ => trivial
  · exact once_done fun _ _ _ => trivial

variable {bootstrap : RuntimeSnapshot}

theorem once_initializeRuntime :
    MeetsOnce node ((node.management me).initializeRuntime bootstrap) (fun _ _ => True) w := by
  refine once_silent rfl rfl (fun env w' hInv => keepsOnce_casRuntime hInv) fun w₁ _ _ answer => ?_
  rcases answer with error | _ | _
  · exact once_done fun _ _ _ => trivial
  · exact once_done fun _ _ _ => trivial
  refine once_silent rfl rfl (fun env w' hInv => (keepsOnce_observeRuntime hInv fun op hMem => by cases hMem).1)
    fun w₂ _ _ answer => ?_
  rcases answer with error | _ | _
  all_goals exact fun _ _ _ => trivial

theorem once_restore : MeetsOnce node ((node.management me).restore bootstrap p) (fun _ _ => True) w := by
  refine once_silent rfl rfl (fun env w' hInv => keepsOnce_adopt hInv) fun w₁ _ _ answer => ?_
  rcases answer with error | _
  · exact once_done fun _ _ _ => trivial
  refine once_read (fun _ _ => rfl) fun w₂ _ _ env _ answer _ => ?_
  rcases answer with error | _ | state
  · exact once_done fun _ _ _ => trivial
  · show ((node.management me).initializeRuntime bootstrap >>= _ : Manage _).Meets _ _ _
    refine bind (once_initializeRuntime.mono fun result w₃ _ _ => ?_)
    cases result with
    | error error => exact once_done fun _ _ _ => trivial
    | ok _ => exact once_restoreLimits
  · show ((node.management me).restoreRuntime state p >>= _ : Manage _).Meets _ _ _
    refine bind (once_restoreRuntime.mono fun result w₃ _ _ => ?_)
    cases result with
    | error error => exact once_done fun _ _ _ => trivial
    | ok q => exact once_restoreLimits

theorem once_bootProg {limits : DynamicLimits} : MeetsOnce node (node.bootProg me limits) (fun _ _ => True) w :=
  bind (once_restore.mono fun _ _ _ _ => fun _ _ _ => trivial)

end Restore

end Turna.Node
