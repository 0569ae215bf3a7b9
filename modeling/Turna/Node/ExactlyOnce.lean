import Turna.Node.Evaluation

/-! # Configuration changes happen exactly once

Processes of a node follow each other, each one replaced for good at any point, while requests come in and any call
may fail. Every request has one result, and every operation raises a version at most once.
-/

namespace Turna.Node
open Lib StateBackend Config Multiset Governed

def World.takes (w : World) (req : EnqueueRequest) : Bool :=
  (req.op == "update_config" || req.op == "set_user_limits") && !req.idempotencyKey.isEmpty &&
    (w.log.command req.requestId).isNone &&
      w.log.backend.commandIdempotency.entries.all fun e => e.2.requestId != req.requestId

def inTurn (w : World) : Label Task Move → Bool
  | .start (.request _ req) => w.takes req
  | .start (.process _) => true
  | .advance (.process proc) (.call _) => w.started.head? == some proc.incarnation
  | .advance (.process proc) (.begin .tick) => w.started.head? == some proc.incarnation
  | .advance _ _ => false

def mindsStep (node : NodeSetup) (w : World) : Label Task Move → Bool
  | .start (.request _ req) => req.op == "update_config" || (node.parseSetUserLimits req.payloadJson).toOption.isSome
  | .advance (.process proc) (.call env) => (node.nextCall proc).all (w.minds env)
  | _ => true

def mindfulRun (node : NodeSetup) (w : World) (_ : Multiset Task) (l : Label Task Move) : Prop :=
  inTurn w l = true ∧ mindsStep node w l = true

/-- A terminal result that is stored for a request, in its command or in the journal. -/
inductive Stored (w : World) (id : String) (result : ResultText) : Prop where
  | command {c : PendingCommand} (hGet : w.log.command id = some c) (hTerminal : c.status.terminal = true)
      (hResult : c.result = result)
  | journal {key : String} {r : IdempotencyRecord} (hEntry : w.log.entry key = some r) (hId : r.requestId = id)
      (hSettled : r.finalStatus.isSome = true) (hResult : r.result = result)

structure ExactlyOnce (w : World) : Prop where
  /-- No operation, by its key and payload, raised an observed version twice. -/
  once : w.raised.Nodup
  same : ∀ id x y, Stored w id x → Stored w id y → x = y
  /-- What raised a version is stored as applied, and as nothing else. -/
  applied : ∀ key hash, (key, hash) ∈ w.raised → ∃ r, w.log.entry key = some r ∧ r.payloadHash = hash ∧
    Stored w r.requestId r.result ∧ ∀ x, Stored w r.requestId x → reportsApplied x = true

section Stored

variable {node : NodeSetup} {w w' : World} {id : String} {x : ResultText}

theorem Stored.kept (h : Stored w id x) (hKept : LogKept w.log w'.log) : Stored w' id x := by
  cases h with
  | command hGet hTerminal hResult => exact .command (hKept.commands _ _ hGet hTerminal) hTerminal hResult
  | journal hEntry hId hSettled hResult => exact .journal (hKept.entries _ _ hEntry hSettled) hId hSettled hResult

theorem Stored.recorded (h : Stored w id x) (hInv : Once node w) :
    ∃ c r, w.log.command id = some c ∧ w.log.entry c.idempotencyKey = some r ∧ r.result = x := by
  cases h with
  | @command c hGet hTerminal hResult =>
    obtain ⟨r, hEntry, -⟩ := hInv.log.record hGet
    exact ⟨c, r, hGet, hEntry, (hInv.log.agrees id c r hGet hEntry hTerminal).symm.trans hResult⟩
  | @journal key r hEntry hId hSettled hResult =>
    obtain ⟨c, hGet⟩ := hInv.log.present key r hEntry
    have hKey := hInv.log.journal.named key r c hEntry hGet
    exact ⟨c, r, hId ▸ hGet, hKey ▸ hEntry, hResult⟩

theorem Once.exactlyOnce (hInv : Once node w) : ExactlyOnce w := by
  have hSame (id : String) (x y : ResultText) (hx : Stored w id x) (hy : Stored w id y) : x = y := by
    obtain ⟨c, r, hGet, hEntry, rfl⟩ := hx.recorded hInv
    obtain ⟨c', r', hGet', hEntry', rfl⟩ := hy.recorded hInv
    rw [hGet] at hGet'
    cases hGet'
    rw [hEntry] at hEntry'
    cases hEntry'
    rfl
  refine ⟨hInv.once, hSame, fun key hash hMem => ?_⟩
  obtain ⟨r, hEntry, hHash, hSettled, hReports⟩ := hInv.raised key hash hMem
  have hStored : Stored w r.requestId r.result := .journal hEntry rfl hSettled rfl
  exact ⟨r, hEntry, hHash, hStored, fun x hx => hSame _ _ _ hStored hx ▸ hReports⟩

end Stored

/-! ## Runs -/

/-- Processes that were replaced take no further step. -/
structure Succession (node : NodeSetup) (w : World) (tasks : Multiset Task) : Prop where
  once : Once node w
  newest : ∀ proc, .process proc ∈ tasks → w.started.head? = some proc.incarnation →
    (node.remaining proc).Meets (onceDiscipline node) (fun _ _ => True) w
  started : ∀ incarnation ∈ tasks.filterMap Task.incarnation?, incarnation ∈ w.started
  distinct : (tasks.filterMap Task.incarnation?).Nodup

namespace Succession

variable {node : NodeSetup} {w w' : World} {tasks tasks' rest : Multiset Task} {proc : Process}

theorem takes_new {now : Nat} {req : EnqueueRequest} (h : w.takes req = true) :
    CommandOp.NewRequest w.log (.enqueue now req) ∧ req.idempotencyKey.isEmpty = false ∧
      (req.op = "update_config" ∨ req.op = "set_user_limits") := by
  simp only [World.takes, Bool.and_eq_true, Bool.or_eq_true, beq_iff_eq, Bool.not_eq_true',
    Option.isNone_iff_eq_none, List.all_eq_true, bne_iff_ne] at h
  obtain ⟨⟨⟨hOp, hKey⟩, hNone⟩, hIds⟩ := h
  exact ⟨⟨hNone, fun key r hEntry => hIds (key, r) (HashMap.mem_entries_iff.mpr hEntry)⟩, hKey, hOp⟩

theorem request (h : Succession node w tasks) {now : Nat} {req : EnqueueRequest}
    (hOk : mindfulRun node w tasks (.start (.request now req))) :
    let w' := { w with log := CommandOp.apply w.log (.enqueue now req) }
    Succession node w' (.request now req ::ₘ tasks) ∧ LogKept w.log w'.log := by
  intro w'
  obtain ⟨hNew, hKey, hOp⟩ := @takes_new w now req hOk.1
  have hAccepts : acceptsCommand node req.op req.payloadJson := by
    refine hOp.imp_right fun hLimits => ⟨hLimits, ?_⟩
    have hReads := hOk.2
    rw [mindsStep, hLimits] at hReads
    cases hParse : node.parseSetUserLimits req.payloadJson with
    | ok command => exact ⟨command, rfl⟩
    | error error =>
      rw [hParse] at hReads
      exact absurd hReads (by simp [Except.toOption])
  obtain ⟨hLog, hKept, hCommands, hEntries⟩ := h.once.log.enqueue hNew hKey hAccepts
  obtain ⟨hRuntime, hLimits⟩ := enqueue_rows w.log.backend now (req.command now)
  have hKeeps : KeepsOnce node w w' := keepsOnce_log h.once hLog hKept hRuntime hLimits
  have hIncarnations : (Task.request now req ::ₘ tasks).filterMap Task.incarnation? =
      tasks.filterMap Task.incarnation? := filterMap_cons_none _ _ rfl
  refine ⟨⟨hKeeps.inv, fun proc hMem hHead => ?_, ?_, ?_⟩, hKept⟩
  · have hMem := (mem_cons.mp hMem).resolve_left nofun
    exact (h.newest proc hMem hHead).stable ⟨hCommands, hEntries⟩
  · rw [hIncarnations]
    exact h.started
  · rw [hIncarnations]
    exact h.distinct

theorem boot (h : Succession node w tasks) {incarnation : String} {limits : DynamicLimits}
    (hNew : incarnation ∉ w.started) :
    Succession node { w with started := incarnation :: w.started }
      (.process ⟨incarnation, .booting limits⟩ ::ₘ tasks) where
  once := ⟨h.once.log, h.once.applied, h.once.raised, h.once.once⟩
  newest proc hMem hHead := by
    obtain hProc | hMem := mem_cons.mp hMem
    · cases hProc
      exact once_bootProg
    have hOld := h.started proc.incarnation ((mem_filterMap _ _).mpr ⟨_, hMem, rfl⟩)
    cases hHead
    exact absurd hOld hNew
  started other hMem := by
    rw [incarnations_cons] at hMem
    obtain rfl | hMem := mem_cons.mp hMem
    · exact List.mem_cons_self
    · exact List.mem_cons_of_mem _ (h.started other hMem)
  distinct := by
    rw [incarnations_cons, nodup_cons]
    exact ⟨fun hMem => hNew (h.started _ hMem), h.distinct⟩

theorem moves (h : Succession node w (.process proc ::ₘ rest)) (hHead : w.started.head? = some proc.incarnation)
    (hOnce : Once node w') (hStarted : w'.started = w.started) {prog : Manage (Option Session.Published)}
    (hMeets : MeetsOnce node prog (fun _ _ => True) w') :
    Succession node w' (.process ⟨proc.incarnation, .of prog⟩ ::ₘ rest) where
  once := hOnce
  newest other hMem hNewest := by
    obtain hOther | hMem := mem_cons.mp hMem
    · cases hOther
      rw [remaining_of]
      exact hMeets
    have hDistinct := h.distinct
    rw [incarnations_cons, nodup_cons] at hDistinct
    rw [hStarted, hHead] at hNewest
    have hMem := (mem_filterMap Task.incarnation? rest).mpr ⟨_, hMem, rfl⟩
    exact absurd (Option.some.inj hNewest ▸ hMem) hDistinct.1
  started := by
    rw [incarnations_cons, hStarted]
    exact incarnations_cons proc rest ▸ h.started
  distinct := by
    rw [incarnations_cons]
    exact incarnations_cons proc rest ▸ h.distinct

theorem advance (h : Succession node w (.process proc ::ₘ rest)) {move : Move} {task' : Task}
    (hOk : mindfulRun node w rest (.advance (.process proc) move))
    (hAdvance : (managementMachine node).advance move w (.process proc) = some (w', task')) :
    Succession node w' (task' ::ₘ rest) ∧ LogKept w.log w'.log := by
  obtain ⟨proc', rfl, hStep⟩ := process_advances hAdvance
  obtain ⟨hTurn, hMinds⟩ := hOk
  cases hStep with
  | @call env c next hRemaining =>
    have hHead := beq_iff_eq.mp hTurn
    rw [mindsStep, nextCall_of_remaining hRemaining] at hMinds
    have hMeets := h.newest proc (mem_cons_self _ _) hHead
    rw [hRemaining] at hMeets
    obtain ⟨hOnce, hKept, hNext⟩ := hMeets w (.refl w) h.once env hMinds
    exact ⟨h.moves hHead hOnce (perform_started env w c) hNext, hKept⟩
  | @begin job p hIdle =>
    cases job with
    | tick =>
      have hHead := beq_iff_eq.mp hTurn
      exact ⟨h.moves hHead h.once rfl (Prog.Meets.bind (once_commandTick.mono fun _ _ _ _ => fun _ _ _ => trivial)),
        .refl _⟩
    | updateConfig pending | setUserLimits pending => cases hTurn

theorem initial : Succession node .new 0 where
  once :=
    { log := .new
      applied := fun op h => by
        obtain ⟨row, hRow, -⟩ | ⟨key, row, hRow, -⟩ := h
        · cases hRow
        · cases hRow
      raised := nofun
      once := List.nodup_nil }
  newest _ hMem := absurd hMem (notMem_zero _)
  started _ hMem := absurd hMem (notMem_zero _)
  distinct := nodup_zero

theorem run (h : Succession node w tasks)
    (hReaches : (managementMachine node).Reaches (mindfulRun node) (w, tasks) (w', tasks')) :
    Succession node w' tasks' ∧ LogKept w.log w'.log := by
  refine hReaches.invariant (fun w' tasks' => Succession node w' tasks' ∧ LogKept w.log w'.log) ?_ ?_ ⟨h, .refl _⟩
  · rintro w₁ tasks₁ task w₂ ⟨hInv, hKept⟩ hOk hStart
    cases task with
    | request now req =>
      cases hStart
      obtain ⟨hNext, hKept'⟩ := hInv.request hOk
      exact ⟨hNext, hKept.trans hKept'⟩
    | process proc =>
      obtain ⟨limits, hPhase, -, hNew, rfl⟩ := starts hStart
      obtain ⟨incarnation, phase⟩ := proc
      cases hPhase
      exact ⟨hInv.boot hNew, hKept⟩
  · rintro w₁ rest task move w₂ task' ⟨hInv, hKept⟩ hOk hAdvance
    cases task with
    | request now req => cases hAdvance
    | process proc =>
      obtain ⟨hNext, hKept'⟩ := hInv.advance hOk hAdvance
      exact ⟨hNext, hKept.trans hKept'⟩

end Succession

/-! ## A completion that is lost time and again -/

namespace Lost

def node : NodeSetup where
  nodeId := "node-a"
  validationCtx := ⟨50000, 50020, false, true⟩
  quota _ := none
  parseUpdateConfig text := if text = "rate" then .ok ⟨1, 0, some 5, none, none⟩ else .error "no such payload"
  parseSetUserLimits _ := .error "no such payload"

def req : EnqueueRequest := ⟨"r1", "node-a", "update_config", [], "rate", "boot-1", "key-1"⟩

def call (now : Nat) (fault : Fault) (index : Nat) : Machine.Choice Task Move :=
  .advance index (.call ⟨now, .stored, fun _ => "token", fault, 0, (.done, "")⟩)

def calls (now n index : Nat) : List (Machine.Choice Task Move) := List.replicate n (call now .none index)

def applied : List (Machine.Choice Task Move) :=
  .start (.process ⟨"boot-1", .booting ⟨1000, 4, 10⟩⟩) :: calls 1 5 0 ++
    .start (.request 1 req) :: .advance 1 (.begin .tick) :: calls 2 7 1

def lost (now : Nat) : List (Machine.Choice Task Move) := [call now (.before .timeout) 1, call now .none 1]

def again (now : Nat) : List (Machine.Choice Task Move) := .advance 1 (.begin .tick) :: calls now 2 1 ++ lost now

def givenUp : List (Machine.Choice Task Move) :=
  applied ++ lost 3 ++ again 40000 ++ again 80000 ++ again 120000 ++ again 160000 ++
    .advance 1 (.begin .tick) :: calls 200000 1 1

def disagrees (w : World) : Bool :=
  (w.log.command "r1").any (fun c => c.status.terminal && c.result == .plain "dead_letter: exceeded 5 claim attempts") &&
    (w.log.entry "key-1").any fun r => r.requestId == "r1" && r.finalStatus.isSome && reportsApplied r.result

theorem not_exactlyOnce {w : World} (h : disagrees w = true) :
    Stored w "r1" (.plain "dead_letter: exceeded 5 claim attempts") ∧ ¬ ExactlyOnce w := by
  simp only [disagrees, Bool.and_eq_true, Option.any_eq_true, beq_iff_eq] at h
  obtain ⟨⟨c, hGet, hTerminal, hResult⟩, r, hEntry, ⟨hId, hSettled⟩, hReports⟩ := h
  have hGivenUp : Stored w "r1" (.plain "dead_letter: exceeded 5 claim attempts") := .command hGet hTerminal hResult
  refine ⟨hGivenUp, fun hOnce => ?_⟩
  rw [hOnce.same "r1" _ _ (.journal hEntry hId hSettled rfl) hGivenUp] at hReports
  cases hReports

end Lost

/-- A confirmed change is reported as failed by the command and as applied by the journal. -/
theorem confirmed_change_given_up : ∃ (w : World) (tasks : Multiset Task),
    (managementMachine Lost.node).Reaches (fun w _ l => inTurn w l = true) (World.new, 0) (w, tasks) ∧
      w.raised.map Prod.fst = ["key-1"] ∧ Stored w "r1" (.plain "dead_letter: exceeded 5 claim attempts") ∧
      ¬ ExactlyOnce w := by
  obtain ⟨w, tasks, hReaches, hSeen⟩ := (managementMachine Lost.node).exists_reaches_of_exec
    (fun w _ l => inTurn w l = true) (World.new, []) Lost.givenUp
    (fun w _ => w.raised.map Prod.fst = ["key-1"] ∧ Lost.disagrees w) (by decide +kernel)
  exact ⟨w, tasks, hReaches, hSeen.1, Lost.not_exactlyOnce hSeen.2⟩

theorem configuration_changes_once (node : NodeSetup) {w w' : World} {tasks tasks' : Multiset Task}
    (hReaches : (managementMachine node).Reaches (mindfulRun node) (World.new, 0) (w, tasks))
    (hLater : (managementMachine node).Reaches (mindfulRun node) (w, tasks) (w', tasks')) :
    ExactlyOnce w ∧ ∀ id x, Stored w id x → Stored w' id x ∧ ∀ y, Stored w' id y → y = x := by
  obtain ⟨hInv, -⟩ := Succession.initial.run hReaches
  obtain ⟨hInv', hKept⟩ := hInv.run hLater
  refine ⟨hInv.once.exactlyOnce, fun id x hStored => ?_⟩
  exact ⟨hStored.kept hKept, fun y hOther => hInv'.once.exactlyOnce.same id y x hOther (hStored.kept hKept)⟩

theorem configuration_changes_once_reclaimed : ∃ w : World,
    w.raised.map Prod.fst = ["key-1"] ∧ (w.log.command "r1").any (fun c => c.attempts == 2 && c.status.terminal) = true ∧
      ExactlyOnce w := by
  obtain ⟨w, _, hReaches, hSeen⟩ := @Machine.exists_reaches_of_exec _ _ _ (managementMachine Lost.node)
    (mindfulRun Lost.node) (fun _ _ _ => inferInstanceAs (Decidable (_ ∧ _))) (World.new, [])
    (Lost.applied ++ Lost.lost 3 ++ .advance 1 (.begin .tick) :: Lost.calls 40000 4 1)
    (fun w _ => w.raised.map Prod.fst = ["key-1"] ∧
      (w.log.command "r1").any (fun c => c.attempts == 2 && c.status.terminal) = true) _ (by decide +kernel)
  obtain ⟨hRaised, hClosed⟩ := hSeen
  exact ⟨w, hRaised, hClosed, (configuration_changes_once Lost.node hReaches .refl).1⟩

end Turna.Node
