import Turna.Node.Dataplane

/-! # Crash safety

A process may stop between any two calls, and one that has been replaced may go on. What the next one
restores is what was confirmed last, no observed version goes down, and a replaced process changes nothing,
as long as its compare-and-set meets a row. On a subject without a row nothing tells it that it was replaced.
-/

namespace Turna.Node
open Lib StateBackend Config

/-- Nothing fails, a node that is adopted was confirmed, and there is a generation for each subject. -/
structure RestoreRules (node : NodeSetup) (me : String) (ok : World → NodeCall → Surroundings → Prop) : Prop where
  calls : CallRules node me ok
  reliable : Reliable ok
  adopt : ∀ {w env}, ok w (.backend (.adoptNodeIncarnation node.nodeId me)) env →
    w.runtimeRow node.nodeId = none ∨ w.confirmed.isSome = true
  rows : ∀ {w env}, ok w (.backend (.listUserLimitsStates node.nodeId)) env →
    w.log.backend.userLimitsStates.len < 2 ^ 64

/-- A node on which nothing was confirmed may take up its boot configuration. -/
structure Kept (node : NodeSetup) (boot : RuntimeSnapshot) (w w' : World) : Prop where
  confirmed : w'.confirmed = w.confirmed ∨ w.confirmed = none ∧ w'.confirmed = some (backendSnapshot boot)
  limits : ∀ key, w'.observedPatch node.nodeId key = w.observedPatch node.nodeId key

section Walk

open List RuntimeManagement

variable {node : NodeSetup} {me : String} {ok : World → NodeCall → Surroundings → Prop} {w w' w'' : World}
  {p : Session.Published} {bootstrap : RuntimeSnapshot}

theorem ObservedSame.kept (h : ObservedSame node w w') : Kept node bootstrap w w' := ⟨.inl h.confirmed, h.limits⟩

theorem Kept.trans (h : Kept node bootstrap w w') (h' : Kept node bootstrap w' w'') : Kept node bootstrap w w'' where
  confirmed := by
    obtain hSame | ⟨hNone, hBoot⟩ := h.confirmed
    · exact hSame ▸ h'.confirmed
    obtain hSame' | ⟨hNone', -⟩ := h'.confirmed
    · exact .inr ⟨hNone, hSame'.trans hBoot⟩
    · rw [hBoot] at hNone'
      cases hNone'
  limits key := (h'.limits key).trans (h.limits key)

variable {state : UserLimitsState} {order : IterOrder}

theorem published_ok {next : Session.UserLimitsSnapshot} {p' : Session.Published}
    (h : p.publishUserLimits next = (.ok (), p')) : (match p.publishUserLimits next with
      | (.error error, _) => throw error.display
      | (.ok (), p) => pure p : Except String Session.Published) = .ok p' := by
  rw [h]
  rfl

theorem restoredLimits_ok (hOk : LimitsRowOk state.subjectKey state) (hRoom : p.userLimits.generation + 1 < 2 ^ 64) :
    ∃ p', restoredLimits state p = .ok p' ∧ p'.runtime = p.runtime ∧
      p'.userLimits.generation ≤ p.userLimits.generation + 1 ∧ ∀ t, overrideOf p'.userLimits t =
        if t.subjectKey = state.subjectKey then sessionOverride state.observedPatch else overrideOf p.userLimits t := by
  obtain ⟨next, hNext⟩ := snapshotWithPatch_ok p state.target state.observedPatch
  obtain ⟨p', hPublish, hPublishes⟩ := @publishUserLimits_room p next hRoom
  cases hPublishes with
  | shown hRuntime hOverride hGeneration =>
    refine ⟨p', ?_, hRuntime, hGeneration, fun t => ?_⟩
    · unfold restoredLimits
      rw [if_neg (not_not.mpr hOk.schema), hOk.target.2, hNext]
      cases hEmpty : state.observedPatch.isEmpty with
      | true => exact published_ok hPublish
      | false =>
        rw [hOk.observed.validate hEmpty]
        exact published_ok hPublish
    · rw [hOverride, override_snapshotWithPatch hOk.observed hNext, hOk.target.1]

/-- What is still to be published when some subjects have been restored. -/
structure Restoring (node : NodeSetup) (w : World) (p : Session.Published) (rest : List UserLimitsState) : Prop where
  runtime : ∃ row, w.runtimeRow node.nodeId = some row ∧ w.confirmed = some row.observedSnapshot ∧
    p.runtime = sessionRuntime (configSnapshot row.observedSnapshot)
  limits : ∀ t : UserLimitTarget, t.subjectKey ∈ rest.map UserLimitsState.subjectKey ∨
    overrideOf p.userLimits t = sessionOverride (w.observedPatch node.nodeId t.subjectKey)
  rest : ∀ state ∈ rest, w.observedPatch node.nodeId state.subjectKey = state.observedPatch

theorem Restoring.transfer {rest : List UserLimitsState} (h : Restoring node w p rest) (hSame : ObservedSame node w w') :
    Restoring node w' p rest where
  runtime := by
    obtain ⟨row, hRow, hConfirmed, hRuntime⟩ := h.runtime
    obtain ⟨row', hRow', hObserved⟩ := hSame.runtime row hRow
    exact ⟨row', hRow', by rw [hSame.confirmed, hConfirmed, hObserved], by rw [hRuntime, hObserved]⟩
  limits t := by
    rw [hSame.limits]
    exact h.limits t
  rest state hMem := by
    rw [hSame.limits]
    exact h.rest state hMem

theorem Restoring.next {rest : List UserLimitsState} {p' : Session.Published}
    (h : Restoring node w p (state :: rest)) (hRuntime : p'.runtime = p.runtime)
    (hOverride : ∀ t : UserLimitTarget, overrideOf p'.userLimits t =
      if t.subjectKey = state.subjectKey then sessionOverride state.observedPatch else overrideOf p.userLimits t) :
    Restoring node w p' rest where
  runtime := by
    rw [hRuntime]
    exact h.runtime
  limits t := by
    rw [hOverride]
    split
    · next hKey =>
      rw [hKey, h.rest state mem_cons_self]
      exact .inr rfl
    next hKey =>
    obtain hMem | hShown := h.limits t
    · rw [map_cons, mem_cons] at hMem
      exact .inl (hMem.resolve_left hKey)
    · exact .inr hShown
  rest state' hMem := h.rest state' (mem_cons_of_mem _ hMem)

def Restored (node : NodeSetup) (me : String) (boot : RuntimeSnapshot) (w₁ : World)
    (result : Except String Session.Published) (w : World) : Prop :=
  w.current = me → ∃ p, result = .ok p ∧ Synced node w p ∧ Kept node boot w₁ w

theorem meets_restoreEach {w₁ : World} {rest : List UserLimitsState}
    (hRows : ∀ state ∈ rest, LimitsRowOk state.subjectKey state)
    (hRoom : p.userLimits.generation + rest.length < 2 ^ 64)
    (hStart : w.current = me → Restoring node w p rest ∧ Kept node bootstrap w₁ w) :
    MeetsNode node me ok ((node.management me).restoreEach p rest) (Restored node me bootstrap w₁) w := by
  induction rest generalizing p w with
  | nil =>
    refine meets_done fun w' hSteady _ hMe => ?_
    obtain ⟨hMe', hSame⟩ := hSteady hMe
    obtain ⟨hRestoring, hKept⟩ := hStart hMe'
    have hRestoring := hRestoring.transfer hSame
    refine ⟨p, rfl, ⟨hRestoring.runtime, fun t => ?_⟩, hKept.trans hSame.kept⟩
    exact (hRestoring.limits t).resolve_left not_mem_nil
  | cons state rest ih =>
    rw [length_cons] at hRoom
    obtain ⟨p', hRestored, hRuntime, hGeneration, hOverride⟩ :=
      restoredLimits_ok (hRows state mem_cons_self) (show p.userLimits.generation + 1 < 2 ^ 64 by omega)
    have hNext {w' : World} (hSteady : Steady node me w w') :
        MeetsNode node me ok ((node.management me).restoreEach p' rest) (Restored node me bootstrap w₁) w' := by
      refine ih (fun state' hMem => hRows state' (mem_cons_of_mem _ hMem)) (by omega) fun hMe => ?_
      obtain ⟨hMe', hSame⟩ := hSteady hMe
      obtain ⟨hRestoring, hKept⟩ := hStart hMe'
      exact ⟨(hRestoring.next hRuntime hOverride).transfer hSame, hKept.trans hSame.kept⟩
    rw [restoreEach, hRestored]
    simp only
    split
    · exact meets_reportLimits fun w' _ hSteady => hNext hSteady
    · exact hNext fun hMe => ⟨hMe, (SameRows.refl w).observedSame⟩

theorem mem_listUserLimitsStates {b : ManagementBackend} {nodeId : String} :
    state ∈ b.listUserLimitsStates order nodeId ↔ ∃ key, b.userLimitsStates.get (nodeId, key) = some state := by
  unfold ManagementBackend.listUserLimitsStates
  simp only [mem_map, mem_filter, IterOrder.mem_visit, HashMap.mem_entries_iff, beq_iff_eq, Prod.exists,
    exists_eq_right]
  constructor
  · rintro ⟨nodeId', key, hGet, rfl⟩
    exact ⟨key, hGet⟩
  · rintro ⟨key, hGet⟩
    exact ⟨nodeId, key, hGet, rfl⟩

theorem length_listUserLimitsStates (b : ManagementBackend) (order : IterOrder) (nodeId : String) :
    (b.listUserLimitsStates order nodeId).length ≤ b.userLimitsStates.len := by
  unfold ManagementBackend.listUserLimitsStates
  rw [length_map]
  refine (length_filter_le _ _).trans ?_
  rw [(order.perm _).length_eq, HashMap.entries, length_map]
  exact Nat.le_refl _

theorem Durable.row_of_mem (hInv : Durable node w)
    (hMem : state ∈ w.log.backend.listUserLimitsStates order node.nodeId) :
    LimitsRowOk state.subjectKey state ∧ w.limitsRow node.nodeId state.subjectKey = some state := by
  obtain ⟨key, hGet⟩ := mem_listUserLimitsStates.mp hMem
  have hOk := (hInv.limits key state hGet).2.2
  exact ⟨hOk.subject.symm ▸ hOk, hOk.subject.symm ▸ hGet⟩

theorem meets_restoreLimits (rules : RestoreRules node me ok) {w₁ : World}
    (hDefault : ∀ t, overrideOf p.userLimits t = .default) (hGeneration : p.userLimits.generation = 0)
    (hStart : w.current = me → (∃ row, w.runtimeRow node.nodeId = some row ∧
      w.confirmed = some row.observedSnapshot ∧ p.runtime = sessionRuntime (configSnapshot row.observedSnapshot)) ∧
        Kept node bootstrap w₁ w) :
    MeetsNode node me ok ((node.management me).restoreLimits p) (Restored node me bootstrap w₁) w := by
  refine meets_quiet rfl fun w' hRely hInv env hOk answer hAnswer => ?_
  obtain rfl | ⟨-, hFault⟩ := hAnswer
  · refine meets_restoreEach (fun state hMem => (hInv.row_of_mem hMem).1) ?_ fun hMe => ?_
    · have hLength := length_listUserLimitsStates w'.log.backend env.order node.nodeId
      have hRows := rules.rows hOk
      show p.userLimits.generation + (w'.log.backend.listUserLimitsStates env.order node.nodeId).length < 2 ^ 64
      omega
    · obtain ⟨hMe', hSame⟩ := hRely hMe
      obtain ⟨hRuntime, hKept⟩ := hStart hMe'
      refine ⟨⟨?_, fun t => ?_, fun state hMem => ?_⟩, hKept.trans hSame.observedSame.kept⟩
      · rw [hSame.runtimeRow, hSame.confirmed]
        exact hRuntime
      · cases hRow : w'.limitsRow node.nodeId t.subjectKey with
        | none =>
          right
          rw [hDefault, World.observedPatch, hRow]
          rfl
        | some state =>
          left
          have hMem := (@mem_listUserLimitsStates _ env.order _ _).mpr ⟨_, hRow⟩
          exact mem_map.mpr ⟨state, hMem, (hInv.limits _ state hRow).2.2.subject⟩
      · rw [World.observedPatch, (hInv.row_of_mem hMem).2]
        rfl
  · exact absurd (rules.reliable _ _ _ hOk) hFault

theorem meets_initializeRuntime (rules : RestoreRules node me ok) (hVersion : bootstrap.version = 0)
    (hValid : bootstrap.limits.validate node.validationCtx = [])
    (hVacant : w.current = me → w.runtimeRow node.nodeId = none) :
    MeetsNode node me ok ((node.management me).initializeRuntime bootstrap)
      (fun r w' => w'.current = me → r = .ok () ∧ w.current = me ∧ (∃ row, w'.runtimeRow node.nodeId = some row ∧
        w'.confirmed = some row.observedSnapshot ∧ row.observedSnapshot = backendSnapshot bootstrap) ∧
          ∀ key, w'.observedPatch node.nodeId key = w.observedPatch node.nodeId key) w := by
  have hDesired := validatePersistedSnapshot_backend hValid
  refine meets_casRuntime rules.calls hDesired (.inr ⟨rfl, hVersion⟩) ?_ ?_ ?_ ?_
  · intro w' hRely hMe hInv
    obtain ⟨hStart, hSame⟩ := hRely hMe
    refine ⟨fun row hRow => ?_, fun _ => ⟨rfl, hVersion⟩⟩
    rw [hSame.runtimeRow, hVacant hStart] at hRow
    cases hRow
  · intro w' hSteady hPrepared
    refine meets_observeRuntime rfl hDesired hPrepared ?_ ?_ ?_ ?_
    · intro w'' hConfirmed
      refine meets_done fun w₃ hSteady' _ hMe => ?_
      obtain ⟨hMe'', hSame''⟩ := hSteady' hMe
      obtain ⟨hMe', hLast, ⟨row, hRow, hObserved⟩, hLimits⟩ := hConfirmed hMe''
      obtain ⟨hStart, hSame⟩ := hSteady hMe'
      obtain ⟨row', hRow', hObserved'⟩ := hSame''.runtime row hRow
      refine ⟨rfl, hStart, ⟨row', hRow', ?_, hObserved'.trans hObserved⟩, fun key => ?_⟩
      · rw [hSame''.confirmed, hLast, hObserved', hObserved]
      · rw [hSame''.limits, hLimits, hSame.limits]
    · exact fun w'' hNot => meets_done_fenced hNot
    all_goals exact fun _ _ _ hFailed => absurd rules.reliable hFailed
  · exact fun w' hNot => meets_done_fenced hNot
  · exact fun _ _ _ hFailed => absurd rules.reliable hFailed

theorem meets_restoreRuntime {state : NodeRuntimeState} (hOk : RuntimeRowOk node state) :
    MeetsNode node me ok ((node.management me).restoreRuntime state p)
      (fun r w' => r = .ok (p.publishRuntime (sessionRuntime (configSnapshot state.observedSnapshot))) ∧
        Steady node me w w') w := by
  unfold restoreRuntime
  have hSnapshot : validatePersistedSnapshot state.observedSnapshot (node.management me).validationCtx = .ok () :=
    hOk.snapshot
  rw [hSnapshot]
  simp only
  rw [if_neg (not_not.mpr hOk.version)]
  split
  · refine meets_reportRuntime fun w' _ hSteady => meets_done fun w'' hSteady' _ => ⟨rfl, hSteady.trans hSteady'⟩
  · exact meets_done fun w' hSteady _ => ⟨rfl, hSteady⟩

theorem meets_restoreAdopted (rules : RestoreRules node me ok) (hVersion : bootstrap.version = 0)
    (hValid : bootstrap.limits.validate node.validationCtx = []) (hDefault : ∀ t, overrideOf p.userLimits t = .default)
    (hGeneration : p.userLimits.generation = 0)
    (hAdopted : w.current = me → w.runtimeRow node.nodeId = none ∨ w.confirmed.isSome = true) :
    MeetsNode node me ok ((node.management me).restoreAdopted bootstrap p) (Restored node me bootstrap w) w := by
  refine meets_quiet rfl fun w' hRely hInv env hOk answer hAnswer => ?_
  obtain hAnswer | ⟨-, hFault⟩ := hAnswer
  · rcases answer with error | _ | state
    · cases hAnswer
    · have hVacant : w'.runtimeRow node.nodeId = none := (Except.ok.inj hAnswer).symm
      simp only [Prog.bind]
      refine Prog.Meets.bind ((meets_initializeRuntime rules hVersion hValid fun _ => hVacant).mono ?_)
      intro r w'' hInv' hDone
      cases r with
      | error error =>
        refine meets_done fun w₃ hSteady _ hMe => ?_
        cases (hDone (hSteady hMe).1).1
      | ok u =>
        refine meets_restoreLimits rules hDefault hGeneration fun hMe => ?_
        obtain ⟨-, hMe', ⟨row, hRow, hConfirmed, hObserved⟩, hLimits⟩ := hDone hMe
        obtain ⟨-, hSame⟩ := hRely hMe'
        refine ⟨⟨row, hRow, hConfirmed, by rw [hObserved]; rfl⟩, .inr ⟨?_, hObserved ▸ hConfirmed⟩, fun key => ?_⟩
        · rw [← hSame.confirmed]
          exact hInv.present hVacant
        · rw [hLimits, hSame.observedPatch]
    · have hRow : w'.runtimeRow node.nodeId = some state := (Except.ok.inj hAnswer).symm
      obtain ⟨-, -, hOk, hLast⟩ := hInv.runtime state hRow
      simp only [Prog.bind]
      refine Prog.Meets.bind ((meets_restoreRuntime hOk).mono ?_)
      rintro r w'' - ⟨rfl, hSteady⟩
      refine meets_restoreLimits rules hDefault hGeneration fun hMe => ?_
      obtain ⟨hMe', hSame'⟩ := hSteady hMe
      obtain ⟨hStart, hSame⟩ := hRely hMe'
      obtain ⟨row, hRow', hObserved⟩ := hSame'.runtime state hRow
      refine ⟨⟨row, hRow', ?_, by rw [hObserved]; rfl⟩, (hSame.observedSame.trans hSame').kept⟩
      obtain hNone | hSome := hAdopted hStart
      · rw [← hSame.runtimeRow, hRow] at hNone
        cases hNone
      obtain ⟨snapshot, hConfirmed⟩ := Option.isSome_iff_exists.mp hSome
      rw [← hSame.confirmed] at hConfirmed
      rw [hSame'.confirmed, hObserved, hLast snapshot hConfirmed, hConfirmed]
  · exact absurd (rules.reliable _ _ _ hOk) hFault

theorem adopted (rules : RestoreRules node me ok) (hInv : Durable node w) {env : Surroundings}
    (hOk : ok w (.backend (.adoptNodeIncarnation node.nodeId me)) env) :
    let w' := w.after env (.adoptNodeIncarnation node.nodeId me)
    RowStep node me w w' ∧ (w'.runtimeRow node.nodeId = none ∨ w'.confirmed.isSome = true) := by
  obtain ⟨hStep, -, hConfirmed, hNone⟩ := @adopt_step node me w env hInv rules.calls.nonempty
  exact ⟨hStep, (rules.adopt hOk).imp hNone fun hSome => hConfirmed ▸ hSome⟩

theorem override_bootPublished (limits : DynamicLimits) (t : UserLimitTarget) :
    overrideOf (NodeSetup.bootPublished limits).userLimits t = .default := by
  unfold overrideOf
  cases t.scope <;> rfl

def NodeSetup.adoptedProg (node : NodeSetup) (incarnation : String) (limits : DynamicLimits) :
    Manage (Option Session.Published) := do
  let restored ← (node.management incarnation).restoreAdopted ⟨0, limits⟩ (bootPublished limits)
  pure restored.toOption

def Booted (node : NodeSetup) (me : String) (limits : DynamicLimits) (w₁ : World) (result : Option Session.Published)
    (w : World) : Prop :=
  w.current = me → ∃ p, result = some p ∧ Synced node w p ∧ Kept node ⟨0, limits⟩ w₁ w

section Boot

variable (rules : RestoreRules node me ok) {limits : DynamicLimits} (hValid : limits.validate node.validationCtx = [])

include rules hValid

theorem meets_adoptedProg (hInv : Durable node w) {env : Surroundings}
    (hOk : ok w (.backend (.adoptNodeIncarnation node.nodeId me)) env) :
    MeetsNode node me ok (node.adoptedProg me limits) (Booted node me limits w)
      (w.after env (.adoptNodeIncarnation node.nodeId me)) := by
  obtain ⟨hStep, hAdopted⟩ := adopted rules hInv hOk
  refine Prog.Meets.bind ((meets_restoreAdopted rules rfl hValid (override_bootPublished limits) rfl
    fun _ => hAdopted).mono ?_)
  intro r w' _ hRestored
  refine meets_done fun w'' hSteady _ hMe => ?_
  obtain ⟨hMe', hSame⟩ := hSteady hMe
  obtain ⟨p, hResult, hSynced, hKept⟩ := hRestored hMe'
  exact ⟨p, by rw [hResult]; rfl, hSynced.transfer hSame, (hStep.observed.kept.trans hKept).trans hSame.kept⟩

theorem meets_bootProg : MeetsNode node me ok (node.bootProg me limits) (AtRest node me) w := by
  refine meets_backend fun w' hRely hInv env hOk => ?_
  obtain ⟨hStep, -⟩ := adopted rules hInv hOk
  have hNext := meets_adoptedProg rules hValid hInv hOk
  have hFault := rules.reliable _ _ _ hOk
  refine ⟨⟨hStep.durable, hStep.guarantee⟩, hNext.mono fun r w'' _ hBooted hMe => ?_, ?_, ?_⟩
  · obtain ⟨p, hResult, hSynced, -⟩ := hBooted hMe
    exact ⟨p, hResult, hSynced⟩
  all_goals
    intro error hError
    rw [hFault] at hError
    cases hError

theorem alone_bootProg : MeetsAlone node me ok (node.bootProg me limits)
    (fun result w' => (Booted node me limits w result w' ∧ Durable node w') ∧ w'.current = me) w := by
  refine alone_backend fun hInv env hOk => ?_
  obtain ⟨hStep, -⟩ := adopted rules hInv hOk
  have hFault := rules.reliable _ _ _ hOk
  have hNext := (meets_adoptedProg rules hValid hInv hOk).alone
  refine ⟨⟨hStep.durable, hStep.guarantee⟩, ?_, ?_, ?_⟩
  · refine (hNext.mono fun result w' hInv' hBooted => ⟨hBooted, hInv'⟩).along ?_ rfl
    exact fun {s s'} hMe hGuar => hGuar.fenced.elim id fun hSame => hSame.1.trans hMe
  all_goals
    intro error hError
    rw [hFault] at hError
    cases hError

end Boot

end Walk

/-! ## Crash safety -/

open Multiset

/-- Processes start on a valid configuration and apply commands, and no call fails. -/
def runsReliably (node : NodeSetup) : Label Task Move → Bool
  | .start (.request _ _) => true
  | .start (.process ⟨_, .booting limits⟩) => (limits.validate node.validationCtx).isEmpty
  | .start (.process _) => false
  | .advance _ (.call env) => decide (env.fault = .none)
  | .advance _ (.begin job) => job.appliesCommand

def World.fences (w : World) : NodeCall → Bool
  | .backend (.casRuntimeDesired nodeId _ incarnation _) => w.current = incarnation || (w.runtimeRow nodeId).isSome
  | .backend (.casUserLimitsDesired nodeId key _ incarnation _ _) =>
    w.current = incarnation || (w.limitsRow nodeId key).isSome
  | .backend (.adoptNodeIncarnation nodeId _) => (w.runtimeRow nodeId).isNone || w.confirmed.isSome
  | .backend (.listUserLimitsStates _) => w.log.backend.userLimitsStates.len < 2 ^ 64
  | _ => true

def fencesStep (node : NodeSetup) (w : World) : Label Task Move → Bool
  | .advance (.process proc) (.call _) => (node.nextCall proc).all w.fences
  | _ => true

def fencedRun (node : NodeSetup) (w : World) (_ : Multiset Task) (l : Label Task Move) : Prop :=
  runsReliably node l = true ∧ fencesStep node w l = true

def fencedCall (w : World) (c : NodeCall) (env : Surroundings) : Prop := env.fault = .none ∧ w.fences c = true

structure ShowsConfirmed (node : NodeSetup) (w : World) (p : Session.Published) : Prop where
  observed : Synced node w p
  runtime : ∃ snapshot, w.confirmed = some snapshot ∧ p.runtime = sessionRuntime (configSnapshot snapshot)
  limits : ∀ target : UserLimitTarget, overrideOf p.userLimits target =
    sessionOverride ((w.confirmedLimits.get target.subjectKey).getD .default)

/-- On a node where nothing was confirmed, the boot configuration. -/
structure RestoresLast (limits : DynamicLimits) (w w' : World) : Prop where
  runtime : w'.confirmed = some (w.confirmed.getD (backendSnapshot ⟨0, limits⟩))
  limits : ∀ key, (w'.confirmedLimits.get key).getD .default = (w.confirmedLimits.get key).getD .default

def bootsOnly (me : String) : Label Task Move → Bool
  | .advance (.process proc) (.begin _) => proc.incarnation != me
  | _ => true

structure CrashSafe (node : NodeSetup) (w : World) (tasks : Multiset Task) : Prop where
  /-- A process at rest that was not replaced shows what was confirmed last and can apply the next command. -/
  rests : ∀ incarnation p, .process ⟨incarnation, .idle p⟩ ∈ tasks → w.current = incarnation →
    ShowsConfirmed node w p ∧ CanApply node incarnation w p
  exited : ∀ incarnation, .process ⟨incarnation, .exited⟩ ∈ tasks → w.current ≠ incarnation
  /-- A restore that runs alone from here. -/
  restores : ∀ incarnation limits envs, incarnation.isEmpty = false → limits.validate node.validationCtx = [] →
    (node.bootProg incarnation limits).Within (nodeDiscipline node incarnation fencedCall).alone envs w →
      ∃ p w', (node.bootProg incarnation limits).run perform envs w = (some p, w') ∧
        ShowsConfirmed node w' p ∧ RestoresLast limits w w' ∧ CanApply node incarnation w' p
  /-- A restore that adopts the node here, among processes that still run. -/
  restoresAmong : ∀ incarnation limits rest env w₁ task w' tasks' p,
    limits.validate node.validationCtx = [] → tasks = .process ⟨incarnation, .booting limits⟩ ::ₘ rest →
    fencedRun node w rest (.advance (.process ⟨incarnation, .booting limits⟩) (.call env)) →
    (managementMachine node).advance (.call env) w (.process ⟨incarnation, .booting limits⟩) = some (w₁, task) →
    (managementMachine node).Reaches (fun w rest l => fencedRun node w rest l ∧ bootsOnly incarnation l = true)
      (w₁, task ::ₘ rest) (w', tasks') →
    .process ⟨incarnation, .idle p⟩ ∈ tasks' → w'.current = incarnation →
      ShowsConfirmed node w' p ∧ RestoresLast limits w w'
  versions : ∀ w' tasks', (managementMachine node).Reaches (fencedRun node) (w, tasks) (w', tasks') →
    VersionsGrow node w w'
  /-- A step of a process after which another incarnation is current has changed no row. -/
  fenced : ∀ proc rest move w' task', tasks = .process proc ::ₘ rest →
    fencedRun node w rest (.advance (.process proc) move) →
    (managementMachine node).advance move w (.process proc) = some (w', task') → w'.current ≠ proc.incarnation →
      SameRows w w' ∧ w'.current = w.current

section Rules

variable {node : NodeSetup} {me : String}

theorem restoreRules_fencedCall (hMe : me.isEmpty = false) : RestoreRules node me fencedCall where
  calls :=
    { nonempty := hMe
      casRuntime := fun hOk hNot => by
        have hRow := hOk.2
        rw [World.fences, Bool.or_eq_true, decide_eq_true_eq] at hRow
        exact Option.isSome_iff_ne_none.mp (hRow.resolve_left hNot)
      casLimits := fun hOk hNot => by
        have hRow := hOk.2
        rw [World.fences, Bool.or_eq_true, decide_eq_true_eq] at hRow
        exact Option.isSome_iff_ne_none.mp (hRow.resolve_left hNot) }
  reliable _ _ _ hOk := hOk.1
  adopt hOk := by
    have hRow := hOk.2
    rw [World.fences, Bool.or_eq_true, Option.isNone_iff_eq_none] at hRow
    exact hRow
  rows hOk := of_decide_eq_true hOk.2

theorem faithful_fencedCall : Faithful fencedCall := by
  intro w c env _ hOk error hFault
  rw [hOk.1] at hFault
  cases hFault

end Rules

section Steps

variable {node : NodeSetup} {post : String → Option Session.Published → World → Prop} {w w' : World}
  {tasks rest : Multiset Task}

theorem fenced_start (h : Governed node (fun _ => fencedCall) post w tasks) {task : Task}
    (hOk : fencedRun node w tasks (.start task)) (hStart : (managementMachine node).start w task = some w')
    (hPost : ∀ incarnation, incarnation ∉ w.started → ∀ r w', AtRest node incarnation r w' → post incarnation r w') :
    Governed node (fun _ => fencedCall) post w' (task ::ₘ tasks) ∧ VersionsGrow node w w' ∧
      ∀ incarnation ∈ w.started, incarnation ∈ w'.started := by
  cases task with
  | request now req =>
    cases hStart
    obtain ⟨hRuntime, hLimits⟩ := Governed.enqueue_rows w.log.backend now (req.command now)
    have hSame : SameRows w { w with log := CommandOp.apply w.log (.enqueue now req) } := ⟨hRuntime, hLimits, rfl, rfl⟩
    exact ⟨h.request now req, hSame.versionsGrow, fun _ hMem => hMem⟩
  | process proc =>
    obtain ⟨limits, hPhase, hNonempty, hNew, rfl⟩ := starts hStart
    obtain ⟨incarnation, phase⟩ := proc
    cases hPhase
    have hSame : SameRows w { w with started := incarnation :: w.started } := ⟨rfl, rfl, rfl, rfl⟩
    refine ⟨h.boot hNonempty hNew ?_, hSame.versionsGrow, fun _ hMem => List.mem_cons_of_mem _ hMem⟩
    refine (meets_bootProg (restoreRules_fencedCall hNonempty) ?_).mono fun r w _ hRest => hPost _ hNew r w hRest
    exact List.isEmpty_iff.mp hOk.1

theorem fenced_advance {proc : Process} {move : Move} {task' : Task}
    (h : Governed node (fun _ => fencedCall) post w (.process proc ::ₘ rest))
    (hOk : fencedRun node w rest (.advance (.process proc) move))
    (hAdvance : (managementMachine node).advance move w (.process proc) = some (w', task'))
    (hPost : ∀ job, move = .begin job → ∀ r w, post proc.incarnation r w ↔ AtRest node proc.incarnation r w) :
    Governed node (fun _ => fencedCall) post w' (task' ::ₘ rest) ∧ Guarantee node proc.incarnation w w' ∧
      w'.started = w.started := by
  obtain ⟨proc', rfl, hStep⟩ := process_advances hAdvance
  cases hStep with
  | @call env c next hRemaining =>
    have hCall : fencedCall w c env := by
      refine ⟨of_decide_eq_true hOk.1, ?_⟩
      have hFences := hOk.2
      rw [fencesStep, nextCall_of_remaining hRemaining] at hFences
      exact hFences
    obtain ⟨hGuar, hGoverned⟩ := h.call hRemaining hCall
    exact ⟨hGoverned, hGuar, Governed.perform_started env w c⟩
  | @begin job p hIdle =>
    have hMe := h.nonempty proc (mem_cons_self _ _)
    refine ⟨h.takeUp hIdle (restoreRules_fencedCall hMe).calls faithful_fencedCall hOk.1 (fun hNot => ?_)
      (hPost job rfl), (SameRows.refl w).guarantee rfl, rfl⟩
    exact absurd (@restoreRules_fencedCall node _ hMe).reliable hNot

end Steps

section Safety

variable {node : NodeSetup} {me : String} {limits : DynamicLimits} {w w' : World} {tasks tasks' rest : Multiset Task}
  {p : Session.Published}

theorem Synced.showsConfirmed (hSynced : Synced node w p) (hInv : Durable node w) : ShowsConfirmed node w p where
  observed := hSynced
  runtime := by
    obtain ⟨row, -, hConfirmed, hRuntime⟩ := hSynced.runtime
    exact ⟨row.observedSnapshot, hConfirmed, hRuntime⟩
  limits target := by
    rw [hInv.confirmedLimits]
    exact hSynced.limits target

theorem Kept.restoresLast (h : Kept node ⟨0, limits⟩ w w') (hSynced : Synced node w' p) (hInv : Durable node w)
    (hInv' : Durable node w') : RestoresLast limits w w' where
  runtime := by
    obtain ⟨row, -, hConfirmed, -⟩ := hSynced.runtime
    obtain hSame | ⟨hNone, hBoot⟩ := h.confirmed
    · rw [← hSame, hConfirmed]
      rfl
    · rw [hBoot, hNone]
      rfl
  limits key := by rw [hInv.confirmedLimits, hInv'.confirmedLimits, h.limits]

theorem fenced_run (h : Governed node (fun _ => fencedCall) (AtRest node) w tasks)
    (hReaches : (managementMachine node).Reaches (fencedRun node) (w, tasks) (w', tasks')) :
    Governed node (fun _ => fencedCall) (AtRest node) w' tasks' ∧ VersionsGrow node w w' := by
  refine hReaches.invariant (fun w' tasks' => Governed node (fun _ => fencedCall) (AtRest node) w' tasks' ∧
    VersionsGrow node w w') ?_ ?_ ⟨h, (SameRows.refl w).versionsGrow⟩
  · rintro w₁ tasks₁ task w₂ ⟨hInv, hGrow⟩ hOk hStart
    obtain ⟨hNext, hGrow', -⟩ := fenced_start hInv hOk hStart fun _ _ _ _ hRest => hRest
    exact ⟨hNext, hGrow.trans hGrow'⟩
  rintro w₁ rest task move w₂ task' ⟨hInv, hGrow⟩ hOk hAdvance
  cases task with
  | request now req => cases hAdvance
  | process proc =>
    obtain ⟨hNext, hGuar, -⟩ := fenced_advance hInv hOk hAdvance fun _ _ _ _ => Iff.rfl
    exact ⟨hNext, hGrow.trans hGuar.grows⟩

def BootedFrom (node : NodeSetup) (me : String) (limits : DynamicLimits) (w₁ : World) (incarnation : String)
    (result : Option Session.Published) (w : World) : Prop :=
  AtRest node incarnation result w ∧ (incarnation = me → Booted node me limits w₁ result w)

theorem bootProg_eq : node.bootProg me limits =
    @Prog.call nodeService _ (.backend (.adoptNodeIncarnation node.nodeId me)) fun answer =>
      match answer with
      | .error _ => .done none
      | .ok () => node.adoptedProg me limits := by
  refine congrArg (@Prog.call nodeService _ (.backend (.adoptNodeIncarnation node.nodeId me))) (funext fun answer => ?_)
  cases answer <;> rfl

theorem adopts {env : Surroundings} {w₁ : World} {task : Task}
    (h : Governed node (fun _ => fencedCall) (AtRest node) w (.process ⟨me, .booting limits⟩ ::ₘ rest))
    (hValid : limits.validate node.validationCtx = [])
    (hOk : fencedRun node w rest (.advance (.process ⟨me, .booting limits⟩) (.call env)))
    (hAdvance : (managementMachine node).advance (.call env) w (.process ⟨me, .booting limits⟩) = some (w₁, task)) :
    Governed node (fun _ => fencedCall) (BootedFrom node me limits w) w₁ (task ::ₘ rest) ∧ me ∈ w₁.started := by
  have hMem := mem_cons_self (Task.process ⟨me, .booting limits⟩) rest
  obtain ⟨hNext, -, hStarted⟩ := fenced_advance h hOk hAdvance fun job hMove => by cases hMove
  have hFault : env.fault = .none := of_decide_eq_true hOk.1
  have hFences := hOk.2
  obtain ⟨proc', rfl, hStep⟩ := process_advances hAdvance
  refine ⟨⟨hNext.durable, ?_, hNext.nonempty, hNext.started, hNext.distinct⟩, ?_⟩
  · cases hStep with
    | call hRemaining =>
    cases bootProg_eq.symm.trans hRemaining
    rw [fencesStep, nextCall_of_remaining hRemaining] at hFences
    have hPerform : perform env w (.backend (.adoptNodeIncarnation node.nodeId me)) =
        (.ok (), w.after env (.adoptNodeIncarnation node.nodeId me)) := by
      unfold perform
      rw [hFault]
      rfl
    rw [hPerform] at hNext ⊢
    intro other hOther
    obtain hOther | hOther := mem_cons.mp hOther
    · cases hOther
      rw [remaining_of]
      refine (meets_adoptedProg (restoreRules_fencedCall (h.nonempty _ hMem)) hValid h.durable ⟨hFault, hFences⟩).mono ?_
      refine fun r w' _ hBooted => ⟨fun hMe => ?_, fun _ => hBooted⟩
      obtain ⟨p, hResult, hSynced, -⟩ := hBooted hMe
      exact ⟨p, hResult, hSynced⟩
    · exact (hNext.meets other (mem_cons_of_mem hOther)).mono fun r w' _ hRest =>
        ⟨hRest, fun hEq => absurd hEq (h.other_ne hOther)⟩
  · rw [hStarted]
    exact h.started me ((mem_filterMap _ _).mpr ⟨_, hMem, rfl⟩)

/-- Run lemma for a restore among processes that still run. -/
theorem booted_run {w₁ : World} (h : Governed node (fun _ => fencedCall) (BootedFrom node me limits w₁) w tasks)
    (hStarted : me ∈ w.started)
    (hReaches : (managementMachine node).Reaches (fun w rest l => fencedRun node w rest l ∧ bootsOnly me l = true)
      (w, tasks) (w', tasks')) :
    Governed node (fun _ => fencedCall) (BootedFrom node me limits w₁) w' tasks' := by
  refine (hReaches.invariant (fun w tasks => Governed node (fun _ => fencedCall) (BootedFrom node me limits w₁) w tasks ∧
    me ∈ w.started) ?_ ?_ ⟨h, hStarted⟩).1
  · rintro w tasks task w' ⟨hInv, hStarted⟩ hOk hStart
    obtain ⟨hNext, -, hKept⟩ := fenced_start hInv hOk.1 hStart fun incarnation hNew r w' hRest =>
      ⟨hRest, fun hMe => absurd (hMe ▸ hStarted) hNew⟩
    exact ⟨hNext, hKept me hStarted⟩
  · rintro w rest task move w' task' ⟨hInv, hStarted⟩ hOk hAdvance
    cases task with
    | request now req => cases hAdvance
    | process proc =>
      obtain ⟨hNext, -, hSame⟩ := fenced_advance hInv hOk.1 hAdvance fun job hMove r w' => by
        cases hMove
        have hOther := bne_iff_ne.mp hOk.2
        exact ⟨fun hPost => hPost.1, fun hRest => ⟨hRest, fun hMe => absurd hMe hOther⟩⟩
      exact ⟨hNext, hSame ▸ hStarted⟩

end Safety

namespace Replaced

def node : NodeSetup where
  nodeId := "node-a"
  validationCtx := ⟨50000, 50020, false, true⟩
  quota _ := none
  parseUpdateConfig _ := .error "no such payload"
  parseSetUserLimits text :=
    if text = "three" then .ok ⟨1, 0, ⟨.global, "", "", ""⟩, ⟨some ⟨.value, 3⟩, none, none⟩⟩ else .error "no such payload"

def everyone : UserLimitTarget := ⟨.global, "", "", ""⟩

def pending : PendingCommand where
  requestId := "r1"
  targetNodeId := "node-a"
  op := "set_user_limits"
  args := []
  payloadJson := "three"
  targetIncarnation := "boot-1"
  status := .inProgress
  result := .plain ""
  createdAtMs := 0
  updatedAtMs := 0
  claimedBy := "node-a"
  leaseUntilMs := 0
  attempts := 1
  claimToken := "t"
  idempotencyKey := "key-1"

def calls (index n : Nat) : List (Machine.Choice Task Move) :=
  List.replicate n (.advance index (.call ⟨0, .stored, fun n => String.ofList (Nat.toDigits 10 n), .none, 0, (.done, "")⟩))

def boots (incarnation : String) : Machine.Choice Task Move := .start (.process ⟨incarnation, .booting ⟨1000, 4, 10⟩⟩)

def replaced : List (Machine.Choice Task Move) :=
  boots "boot-1" :: calls 0 5 ++ .advance 0 (.begin (.setUserLimits pending)) :: calls 0 3 ++ boots "boot-2" :: calls 0 3

def goesOn : List (Machine.Choice Task Move) := replaced ++ calls 1 4

theorem durable_new : Durable node .new where
  runtime _ hRow := by cases hRow
  present _ := rfl
  limits _ _ hRow := by cases hRow
  confirmedLimits _ := rfl

end Replaced

/-- A replaced process confirms limits which the process that restored the node does not show. -/
theorem replaced_process_confirms : ∃ (w : World) (tasks : Multiset Task) (p : Session.Published),
    (managementMachine Replaced.node).Reaches (fun _ _ l => runsReliably Replaced.node l = true) (World.new, 0)
      (w, tasks) ∧
    .process ⟨"boot-2", .idle p⟩ ∈ tasks ∧ w.current = "boot-2" ∧
      (w.limitsRow "node-a" "global").map UserLimitsState.incarnation = some "boot-1" ∧
      ¬ ShowsConfirmed Replaced.node w p := by
  obtain ⟨w, tasks, hReaches, hSeen⟩ := (managementMachine Replaced.node).exists_reaches_of_exec
    (fun _ _ l => runsReliably Replaced.node l = true) (World.new, []) Replaced.goesOn
    (fun w tasks => (w.current = "boot-2" ∧
      (w.limitsRow "node-a" "global").map UserLimitsState.incarnation = some "boot-1") ∧
        tasks.any (Task.restsWith fun incarnation p => decide (incarnation = "boot-2" ∧
          overrideOf p.userLimits Replaced.everyone ≠
            sessionOverride ((w.confirmedLimits.get Replaced.everyone.subjectKey).getD .default)))) (by decide +kernel)
  obtain ⟨incarnation, p, hMem, hShown⟩ := exists_rests hSeen.2
  obtain ⟨rfl, hOther⟩ := of_decide_eq_true hShown
  exact ⟨w, tasks, p, hReaches, hMem, hSeen.1.1, hSeen.1.2, fun hShows => hOther (hShows.limits _)⟩

theorem crash_safe (node : NodeSetup) {w₀ w : World} {tasks : Multiset Task} (hDurable : Durable node w₀)
    (hReaches : (managementMachine node).Reaches (fencedRun node) (w₀, 0) (w, tasks)) : CrashSafe node w tasks := by
  obtain ⟨hInv, -⟩ := fenced_run (.initial hDurable) hReaches
  constructor
  · intro incarnation p hMem hCurrent
    have hSynced := hInv.atRest hMem hCurrent
    exact ⟨hSynced.showsConfirmed hInv.durable, hSynced.canApply hInv.durable (hInv.nonempty _ hMem) hCurrent⟩
  · intro incarnation hMem hCurrent
    obtain ⟨p, hResult, -⟩ := hInv.done hMem rfl hCurrent
    cases hResult
  · intro incarnation limits envs hNonempty hValid hWithin
    obtain ⟨⟨hBooted, hInv'⟩, hCurrent⟩ :=
      (alone_bootProg (restoreRules_fencedCall hNonempty) hValid).run hInv.durable hWithin
    obtain ⟨p, hResult, hSynced, hKept⟩ := hBooted hCurrent
    exact ⟨p, _, Prod.ext hResult rfl, hSynced.showsConfirmed hInv', hKept.restoresLast hSynced hInv.durable hInv',
      hSynced.canApply hInv' hNonempty hCurrent⟩
  · intro incarnation limits rest env w₁ task w' tasks' p hValid hTasks hOk hAdvance hLater hMem hCurrent
    obtain rfl := hTasks
    obtain ⟨hStart, hStarted⟩ := adopts hInv hValid hOk hAdvance
    have hEnd := booted_run hStart hStarted hLater
    obtain ⟨p', hResult, hSynced, hKept⟩ := (hEnd.done hMem rfl).2 rfl hCurrent
    cases hResult
    exact ⟨hSynced.showsConfirmed hEnd.durable, hKept.restoresLast hSynced hInv.durable hEnd.durable⟩
  · intro w' tasks' hLater
    exact (fenced_run hInv hLater).2
  · intro proc rest move w' task' hTasks hOk hAdvance hOther
    obtain rfl := hTasks
    obtain ⟨-, hGuar, -⟩ := fenced_advance hInv hOk hAdvance fun _ _ _ _ => Iff.rfl
    obtain ⟨hCurrent, hSame⟩ := hGuar.fenced.resolve_left hOther
    exact ⟨hSame, hCurrent⟩

theorem crash_safe_replaced : ∃ (w : World) (tasks : Multiset Task), w.current = "boot-2" ∧
    CrashSafe Replaced.node w tasks := by
  obtain ⟨w, tasks, hReaches, hSeen⟩ := @Machine.exists_reaches_of_exec _ _ _ (managementMachine Replaced.node)
    (fencedRun Replaced.node) (fun _ _ _ => inferInstanceAs (Decidable (_ ∧ _))) (World.new, []) Replaced.replaced
    (fun w _ => w.current = "boot-2") _ (by decide +kernel)
  exact ⟨w, tasks, hSeen, crash_safe Replaced.node Replaced.durable_new hReaches⟩

end Turna.Node
