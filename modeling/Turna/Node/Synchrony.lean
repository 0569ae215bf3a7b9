import Turna.Node.Observed

/-! # The dataplane against the durable state

A process publishes a change before it is confirmed and takes it back when it is not. As long as its
incarnation is the current one, no other process touches the rows of the node, so that at the end of a
task what is published is what is observed.
-/

namespace Turna.Node
open Lib StateBackend Config RuntimeManagement ManagementBackend TerminalStatus UserLimitsState RuntimeSnapshot

/-- What is published is what the backend holds as observed, and that was confirmed. -/
structure Synced (node : NodeSetup) (w : World) (p : Session.Published) : Prop where
  runtime : ∃ row, w.runtimeRow node.nodeId = some row ∧ w.confirmed = some row.observedSnapshot ∧
    p.runtime = sessionRuntime (configSnapshot row.observedSnapshot)
  limits : ∀ target, overrideOf p.userLimits target = sessionOverride (w.observedPatch node.nodeId target.subjectKey)

/-- The others leave the rows of a node alone as long as its incarnation is current. -/
def nodeDiscipline (node : NodeSetup) (me : String) (ok : World → NodeCall → Surroundings → Prop) :
    Discipline nodeService World Surroundings where
  perform := perform
  ok := ok
  inv := Durable node
  rely w w' := w'.current = me → w.current = me ∧ SameRows w w'
  guar := Guarantee node me
  rely_refl w h := ⟨h, .refl w⟩
  rely_trans h h' := fun hMe =>
    have ⟨hMe', hSame'⟩ := h' hMe
    have ⟨hMe'', hSame⟩ := h hMe'
    ⟨hMe'', hSame.trans hSame'⟩

abbrev MeetsNode (node : NodeSetup) (me : String) (ok : World → NodeCall → Surroundings → Prop) {α : Type}
    (p : Manage α) (post : α → World → Prop) (w : World) : Prop :=
  p.Meets (nodeDiscipline node me ok) post w

/-- A considered call of an incarnation that is no longer current meets a row. -/
structure CallRules (node : NodeSetup) (me : String) (ok : World → NodeCall → Surroundings → Prop) : Prop where
  nonempty : me.isEmpty = false
  casRuntime : ∀ {w env expected desired}, ok w (.backend (.casRuntimeDesired node.nodeId expected me desired)) env →
    w.current ≠ me → w.runtimeRow node.nodeId ≠ none
  casLimits : ∀ {w env key expected target desired},
    ok w (.backend (.casUserLimitsDesired node.nodeId key expected me target desired)) env → w.current ≠ me →
      w.limitsRow node.nodeId key ≠ none

def NodeCall.confirms : NodeCall → Bool
  | .backend (.confirmRuntimeObserved _ _ _ _ .observed _ _) => true
  | .backend (.confirmUserLimitsObserved _ _ _ _ _ .observed _ _) => true
  | _ => false

def Faithful (ok : World → NodeCall → Surroundings → Prop) : Prop :=
  ∀ w c env, c.confirms = true → ok w c env → ∀ error, env.fault ≠ .after error

def Reliable (ok : World → NodeCall → Surroundings → Prop) : Prop := ∀ w c env, ok w c env → env.fault = .none

/-- For an incarnation that is still current, the observed state has not changed. -/
def Steady (node : NodeSetup) (me : String) (w w' : World) : Prop :=
  w'.current = me → w.current = me ∧ ObservedSame node w w'

/-- For an incarnation that is still current, what is published is observed. -/
def Shows (node : NodeSetup) (me : String) (p : Session.Published) (w : World) : Prop :=
  w.current = me → Synced node w p

section Steady

variable {node : NodeSetup} {me : String} {w w' w'' : World} {p : Session.Published}

theorem Steady.trans (h : Steady node me w w') (h' : Steady node me w' w'') : Steady node me w w'' := by
  intro hMe
  obtain ⟨hMe', hSame'⟩ := h' hMe
  obtain ⟨hMe'', hSame⟩ := h hMe'
  exact ⟨hMe'', hSame.trans hSame'⟩

theorem Synced.transfer (h : Synced node w p) (hSame : ObservedSame node w w') : Synced node w' p where
  runtime := by
    obtain ⟨row, hRow, hConfirmed, hRuntime⟩ := h.runtime
    obtain ⟨row', hRow', hObserved⟩ := hSame.runtime row hRow
    exact ⟨row', hRow', by rw [hSame.confirmed, hConfirmed, hObserved], by rw [hRuntime, hObserved]⟩
  limits target := by rw [h.limits, hSame.limits]

theorem Shows.steady (h : Shows node me p w) (hSteady : Steady node me w w') : Shows node me p w' := by
  intro hMe
  obtain ⟨hMe', hSame⟩ := hSteady hMe
  exact (h hMe').transfer hSame

theorem Synced.version (h : Synced node w p) (hInv : Durable node w) {row : NodeRuntimeState}
    (hRow : w.runtimeRow node.nodeId = some row) : row.observedVersion = p.runtime.version := by
  obtain ⟨row', hRow', -, hRuntime⟩ := h.runtime
  obtain rfl := Option.some.inj (hRow.symm.trans hRow')
  rw [hRuntime, ← (hInv.runtime row hRow).2.2.1.version]
  rfl

end Steady

/-! ## One call at a time -/

section Calls

variable {node : NodeSetup} {me : String} {ok : World → NodeCall → Surroundings → Prop} {α : Type}
  {post : α → World → Prop} {w : World}

theorem steady_of_rely {w' : World} (hRely : (nodeDiscipline node me ok).rely w w') : Steady node me w w' := by
  intro hMe
  obtain ⟨hMe', hSame⟩ := hRely hMe
  exact ⟨hMe', hSame.observedSame⟩

theorem not_reliable {c : NodeCall} {env : Surroundings} (hOk : ok w c env) (hFault : env.fault ≠ .none) :
    ¬ Reliable ok :=
  fun hReliable => hFault (hReliable _ _ _ hOk)

variable {c : BackendCall} {next : Except BackendError Bool → Manage α} {version : Nat} {error key : String}

theorem meets_backend {next : Except BackendError c.Value → Manage α}
    (h : ∀ w', (nodeDiscipline node me ok).rely w w' → Durable node w' → ∀ env, ok w' (.backend c) env →
      (Durable node (w'.after env c) ∧ Guarantee node me w' (w'.after env c)) ∧
      MeetsNode node me ok (next (c.answer env w'.log.backend)) post (w'.after env c) ∧
      (∀ error, env.fault = .before error → MeetsNode node me ok (next (.error error)) post w') ∧
      ∀ error, env.fault = .after error →
        MeetsNode node me ok (next (.error error)) post (w'.after env c)) :
    MeetsNode node me ok (.call (.backend c) next) post w := by
  intro w' hRely hInv env hOk
  obtain ⟨⟨hInv', hGuar⟩, hDone, hBefore, hAfter⟩ := h w' hRely hInv env hOk
  show Durable node (perform env w' (.backend c)).2 ∧ Guarantee node me w' (perform env w' (.backend c)).2 ∧
    MeetsNode node me ok (next (perform env w' (.backend c)).1) post (perform env w' (.backend c)).2
  unfold perform
  cases hFault : env.fault with
  | none => exact ⟨hInv', hGuar, hDone⟩
  | before error => exact ⟨hInv, (SameRows.refl w').guarantee rfl, hBefore error hFault⟩
  | after error => exact ⟨hInv', hGuar, hAfter error hFault⟩

theorem meets_quiet {next : Except BackendError c.Value → Manage α} (hQuiet : c.quiet = true)
    (h : ∀ w', (nodeDiscipline node me ok).rely w w' → Durable node w' → ∀ env, ok w' (.backend c) env → ∀ answer,
      (answer = c.answer env w'.log.backend ∨ (∃ error, answer = .error error) ∧ env.fault ≠ .none) →
        MeetsNode node me ok (next answer) post w') :
    MeetsNode node me ok (.call (.backend c) next) post w := by
  refine meets_backend fun w' hRely hInv env hOk => ?_
  obtain ⟨hSame, hCurrent⟩ := @after_quiet w' env c hQuiet
  have hNext := h w' hRely hInv env hOk
  have hStable : (nodeDiscipline node me ok).rely w' (w'.after env c) := fun hMe => ⟨hCurrent.symm.trans hMe, hSame⟩
  refine ⟨⟨hInv.congr hSame hCurrent, hSame.guarantee hCurrent⟩, (hNext _ (.inl rfl)).stable hStable, ?_, ?_⟩
  · intro error hFault
    exact hNext _ (.inr ⟨⟨error, rfl⟩, hFault ▸ nofun⟩)
  · intro error hFault
    exact (hNext _ (.inr ⟨⟨error, rfl⟩, hFault ▸ nofun⟩)).stable hStable

theorem meets_local {c : NodeCall} {next : c.Answer → Manage α} (hLocal : ∀ env w, (perform env w c).2 = w)
    (h : ∀ answer, MeetsNode node me ok (next answer) post w) :
    MeetsNode node me ok (.call c next) post w := by
  intro w' hRely hInv env _
  have hSame : (perform env w' c).2 = w' := hLocal env w'
  show Durable node (perform env w' c).2 ∧ Guarantee node me w' (perform env w' c).2 ∧
    MeetsNode node me ok (next (perform env w' c).1) post (perform env w' c).2
  rw [hSame]
  exact ⟨hInv, (SameRows.refl w').guarantee rfl, (h _).stable hRely⟩

theorem meets_nowMs {next : Nat → Manage α} (h : ∀ now, MeetsNode node me ok (next now) post w) :
    MeetsNode node me ok (.call .nowMs next) post w :=
  meets_local (fun _ _ => rfl) h

variable {applied : Option AppliedOperation} {observed : RuntimeConfigSnapshot} {target : UserLimitTarget}

theorem meets_usage {next : Nat → Manage α} (h : ∀ used, MeetsNode node me ok (next used) post w) :
    MeetsNode node me ok (.call (.usage target) next) post w :=
  meets_local (fun _ _ => rfl) h

theorem meets_rows {next : Except BackendError c.Value → Manage α}
    (hStep : ∀ w' env, Durable node w' → ok w' (.backend c) env →
      RowStep node me w' (w'.after env c) ∧ (w'.after env c).current = w'.current)
    (hNext : ∀ w' env, (nodeDiscipline node me ok).rely w w' → Durable node w' → ok w' (.backend c) env →
      Steady node me w (w'.after env c) →
        MeetsNode node me ok (next (c.answer env w'.log.backend)) post (w'.after env c))
    (hFail : ∀ w' error, Steady node me w w' → ¬ Reliable ok → MeetsNode node me ok (next (.error error)) post w') :
    MeetsNode node me ok (.call (.backend c) next) post w := by
  refine meets_backend fun w' hRely hInv env hOk => ?_
  obtain ⟨hRow, hCurrent⟩ := hStep w' env hInv hOk
  have hSteady : Steady node me w (w'.after env c) :=
    (steady_of_rely hRely).trans fun hMe => ⟨hCurrent.symm.trans hMe, hRow.observed⟩
  refine ⟨⟨hRow.durable, hRow.guarantee⟩, hNext w' env hRely hInv hOk hSteady, ?_, ?_⟩
  · intro error hFault
    exact hFail w' error (steady_of_rely hRely) (not_reliable hOk (hFault ▸ nofun))
  · intro error hFault
    exact hFail _ error hSteady (not_reliable hOk (hFault ▸ nofun))

/-! ## Preparing and confirming -/

variable {p : Session.Published}

theorem meets_casRuntime (rules : CallRules node me ok) {expected : Nat} {desired : RuntimeConfigSnapshot}
    (hDesired : validatePersistedSnapshot desired node.validationCtx = .ok ())
    (hVersion : desired.version = expected + 1 ∨ expected = 0 ∧ desired.version = 0)
    (hKnown : ∀ w', (nodeDiscipline node me ok).rely w w' → w'.current = me → Durable node w' →
      (∀ row, w'.runtimeRow node.nodeId = some row → row.observedVersion = expected) ∧
        (w'.runtimeRow node.nodeId = none → expected = 0 ∧ desired.version = 0))
    (hPrepared : ∀ w', Steady node me w w' →
      (w'.current = me → ∃ row, w'.runtimeRow node.nodeId = some row ∧ row.desiredVersion = desired.version) →
        MeetsNode node me ok (next (.ok true)) post w')
    (hRefused : ∀ w', w'.current ≠ me → MeetsNode node me ok (next (.ok false)) post w')
    (hFailed : ∀ w' error, Steady node me w w' → ¬ Reliable ok → MeetsNode node me ok (next (.error error)) post w') :
    MeetsNode node me ok (.call (.backend (.casRuntimeDesired node.nodeId expected me desired)) next) post w := by
  refine meets_rows (fun w' env hInv hOk => ?_) (fun w' env hRely hInv hOk hSteady => ?_) hFailed
  · exact ⟨casRuntime_step hInv rules.nonempty (rules.casRuntime hOk) hDesired hVersion casRuntime, rfl⟩
  have hCas := @ManagementBackend.casRuntime w'.log.backend env.now node.nodeId me expected desired
  cases hAnswer : (w'.log.backend.casRuntimeDesired env.now node.nodeId expected me desired).1 with
  | true =>
    show (next (.ok (w'.log.backend.casRuntimeDesired env.now node.nodeId expected me desired).1)).Meets _ _ _
    rw [hAnswer]
    refine hPrepared _ hSteady fun _ => ?_
    obtain ⟨row, hRow, hDesired, -⟩ := casRuntime_prepared hCas hAnswer
    exact ⟨row, hRow, hDesired⟩
  | false =>
    show (next (.ok (w'.log.backend.casRuntimeDesired env.now node.nodeId expected me desired).1)).Meets _ _ _
    rw [hAnswer]
    refine hRefused _ fun hMe => ?_
    have hMe : w'.current = me := hMe
    obtain ⟨hRow, hNone⟩ := hKnown w' hRely hMe hInv
    rw [casRuntime_answers hInv hMe hRow hNone hCas] at hAnswer
    cases hAnswer

def ConfirmedRuntime (node : NodeSetup) (me : String) (observed : RuntimeConfigSnapshot) (w w' : World) : Prop :=
  w'.current = me → w.current = me ∧ w'.confirmed = some observed ∧
    (∃ row, w'.runtimeRow node.nodeId = some row ∧ row.observedSnapshot = observed) ∧
      ∀ key, w'.observedPatch node.nodeId key = w.observedPatch node.nodeId key

theorem meets_observeRuntime (hVersion : observed.version = version)
    (hValid : validatePersistedSnapshot observed node.validationCtx = .ok ())
    (hPrepared : w.current = me → ∃ row, w.runtimeRow node.nodeId = some row ∧ row.desiredVersion = version)
    (hConfirmed : ∀ w', ConfirmedRuntime node me observed w w' →
      MeetsNode node me ok (next (.ok true)) post w')
    (hRefused : ∀ w', w'.current ≠ me → MeetsNode node me ok (next (.ok false)) post w')
    (hFailed : ∀ w' error, Steady node me w w' → ¬ Reliable ok → MeetsNode node me ok (next (.error error)) post w')
    (hLost : ∀ w' error, ¬ Faithful ok → ¬ Reliable ok → MeetsNode node me ok (next (.error error)) post w') :
    MeetsNode node me ok (.call (.backend (.confirmRuntimeObserved node.nodeId version me observed .observed error
      applied)) next) post w := by
  refine meets_backend fun w' hRely hInv env hOk => ?_
  have hObserve := @confirmRuntime_observe node me w' env version observed error applied hInv hVersion hValid
  refine ⟨⟨hObserve.durable, hObserve.guarantee⟩, ?_, ?_, ?_⟩
  · show (next (.ok (w'.log.backend.confirmRuntimeObserved env.now node.nodeId version me observed .observed error
      applied).1)).Meets _ _ _
    cases hAnswer : (w'.log.backend.confirmRuntimeObserved env.now node.nodeId version me observed .observed error
        applied).1 with
    | true =>
      refine hConfirmed _ fun hMe => ?_
      obtain ⟨hMe', hSame⟩ := hRely (hObserve.current.symm.trans hMe)
      obtain ⟨hLast, hRow⟩ := hObserve.observes hAnswer
      refine ⟨hMe', hLast, hRow, fun key => ?_⟩
      rw [World.observedPatch, World.limitsRow, hObserve.limits]
      exact hSame.observedPatch node.nodeId key
    | false =>
      refine hRefused _ fun hMe => ?_
      have hMe' := hObserve.current.symm.trans hMe
      obtain ⟨hStart, hSame⟩ := hRely hMe'
      obtain ⟨row, hRow, hDesired⟩ := hPrepared hStart
      rw [confirmRuntime_answers hInv hMe' ((hSame.runtimeRow _).trans hRow) hDesired] at hAnswer
      cases hAnswer
  · intro error' hFault
    exact hFailed w' error' (steady_of_rely hRely) (not_reliable hOk (by simp [hFault]))
  · intro error' hFault
    exact hLost _ error' (fun hFaithful => hFaithful _ _ _ rfl hOk _ hFault) (not_reliable hOk (by simp [hFault]))

theorem meets_reportRuntime
    (hNext : ∀ w' answer, Steady node me w w' → MeetsNode node me ok (next answer) post w') :
    MeetsNode node me ok (.call (.backend (.confirmRuntimeObserved node.nodeId version me observed .failed error none))
      next) post w := by
  refine meets_rows (fun w' env hInv _ => ⟨?_, rfl⟩) (fun w' env _ _ _ hSteady => hNext _ _ hSteady)
    fun w' error' hSteady _ => hNext w' _ hSteady
  exact (confirmRuntime_report hInv RuntimeStatus.noConfusion confirmRuntime).congr ⟨rfl, rfl, rfl, rfl⟩ rfl

theorem meets_reportLimits {observed : UserLimitsPatch}
    (hNext : ∀ w' answer, Steady node me w w' → MeetsNode node me ok (next answer) post w') :
    MeetsNode node me ok (.call (.backend (.confirmUserLimitsObserved node.nodeId key version me observed .failed error
      none)) next) post w := by
  refine meets_rows (fun w' env hInv _ => ⟨?_, rfl⟩) (fun w' env _ _ _ hSteady => hNext _ _ hSteady)
    fun w' error' hSteady _ => hNext w' _ hSteady
  exact (confirmLimits_report hInv RuntimeStatus.noConfusion confirmUserLimits).congr ⟨rfl, rfl, rfl, rfl⟩ rfl

theorem meets_casLimits (rules : CallRules node me ok) {expected : Nat} {desired : UserLimitsPatch}
    (hTarget : target.subjectKey = key ∧ validateTarget target = .ok ()) (hRoom : expected + 1 < 2 ^ 64)
    (hKnown : w.current = me → w.limitsVersion node.nodeId key = expected) (hPrepared : ∀ w', Steady node me w w' →
      (w'.current = me → ∃ row, w'.limitsRow node.nodeId key = some row ∧ row.desiredVersion = expected + 1) →
        MeetsNode node me ok (next (.ok true)) post w')
    (hRefused : ∀ w', w'.current ≠ me → MeetsNode node me ok (next (.ok false)) post w')
    (hFailed : ∀ w' error, Steady node me w w' → ¬ Reliable ok → MeetsNode node me ok (next (.error error)) post w') :
    MeetsNode node me ok
      (.call (.backend (.casUserLimitsDesired node.nodeId key expected me target desired)) next) post w := by
  refine meets_rows (fun w' env hInv hOk => ?_) (fun w' env hRely hInv hOk hSteady => ?_) hFailed
  · exact ⟨casLimits_step hInv rules.nonempty (rules.casLimits hOk) hTarget casUserLimits, rfl⟩
  have hCas := @ManagementBackend.casUserLimits w'.log.backend env.now node.nodeId key me expected target desired
  obtain ⟨answer, hAnswer⟩ := casLimits_ok hRoom hCas
  show (next (w'.log.backend.casUserLimitsDesired env.now node.nodeId key expected me target desired).1).Meets _ _ _
  rw [hAnswer]
  cases answer with
  | true => exact hPrepared _ hSteady fun _ => casLimits_prepared hCas hAnswer
  | false =>
    refine hRefused _ fun hMe => ?_
    have hMe : w'.current = me := hMe
    obtain ⟨hStart, hSame⟩ := hRely hMe
    have hVersion : w'.limitsVersion node.nodeId key = expected := by
      rw [World.limitsVersion, hSame.limitsRow]
      exact hKnown hStart
    exact casLimits_answers hInv hMe hVersion hCas hAnswer

def ConfirmedLimits (node : NodeSetup) (me key : String) (observed : UserLimitsPatch) (w w' : World) : Prop :=
  w'.current = me → w.current = me ∧ w'.confirmed = w.confirmed ∧
    w'.runtimeRow node.nodeId = w.runtimeRow node.nodeId ∧
      ∀ key', w'.observedPatch node.nodeId key' = if key' = key then observed else w.observedPatch node.nodeId key'

theorem meets_observeLimits {observed : UserLimitsPatch} (hPlain : PlainPatch observed)
    (hPrepared : w.current = me → ∃ row, w.limitsRow node.nodeId key = some row ∧ row.desiredVersion = version)
    (hConfirmed : ∀ w', ConfirmedLimits node me key observed w w' →
      MeetsNode node me ok (next (.ok true)) post w')
    (hRefused : ∀ w', w'.current ≠ me → MeetsNode node me ok (next (.ok false)) post w')
    (hFailed : ∀ w' error, Steady node me w w' → ¬ Reliable ok → MeetsNode node me ok (next (.error error)) post w')
    (hLost : ∀ w' error, ¬ Faithful ok → ¬ Reliable ok → MeetsNode node me ok (next (.error error)) post w') :
    MeetsNode node me ok (.call (.backend (.confirmUserLimitsObserved node.nodeId key version me observed .observed
      error applied)) next) post w := by
  refine meets_backend fun w' hRely hInv env hOk => ?_
  have hObserve := @confirmLimits_observe node me w' env key version observed error applied hInv hPlain
  refine ⟨⟨hObserve.durable, hObserve.guarantee⟩, ?_, ?_, ?_⟩
  · show (next (.ok (w'.log.backend.confirmUserLimitsObserved env.now node.nodeId key version me observed .observed error
      applied).1)).Meets _ _ _
    cases hAnswer : (w'.log.backend.confirmUserLimitsObserved env.now node.nodeId key version me observed .observed
        error applied).1 with
    | true =>
      refine hConfirmed _ fun hMe => ?_
      obtain ⟨hMe', hSame⟩ := hRely (hObserve.current.symm.trans hMe)
      refine ⟨hMe', hObserve.confirmed.trans hSame.confirmed, ?_, fun key' => ?_⟩
      · rw [World.runtimeRow, hObserve.runtime]
        exact hSame.runtimeRow node.nodeId
      · rw [hObserve.observes hAnswer, hSame.observedPatch]
    | false =>
      refine hRefused _ fun hMe => ?_
      have hMe' := hObserve.current.symm.trans hMe
      obtain ⟨hStart, hSame⟩ := hRely hMe'
      obtain ⟨row, hRow, hDesired⟩ := hPrepared hStart
      rw [confirmLimits_answers hInv hMe' ((hSame.limitsRow _ key).trans hRow) hDesired] at hAnswer
      cases hAnswer
  · intro error' hFault
    exact hFailed w' error' (steady_of_rely hRely) (not_reliable hOk (hFault ▸ nofun))
  · intro error' hFault
    exact hLost _ error' (fun hFaithful => hFaithful _ _ _ rfl hOk _ hFault) (not_reliable hOk (hFault ▸ nofun))

theorem meets_done {a : α} (h : ∀ w', Steady node me w w' → Durable node w' → post a w') :
    MeetsNode node me ok (.done a) post w :=
  fun w' hRely hInv => h w' (steady_of_rely hRely) hInv

theorem meets_done_fenced {a : α} {post : α → World → Prop} (hNot : w.current ≠ me) :
    MeetsNode node me ok (.done a) (fun a w => w.current = me → post a w) w :=
  meets_done fun _ hSteady _ hMe => absurd (hSteady hMe).1 hNot

end Calls

/-! ## Tasks -/

section Tasks

variable {node : NodeSetup} {me : String} {ok : World → NodeCall → Surroundings → Prop} {w w' : World}
  {p : Session.Published} {pending : PendingCommand}

/-- For an incarnation that is still current: a command made for the observed version is no conflict and, if nothing
fails, applied. -/
def Ends (node : NodeSetup) (me : String) (ok : World → NodeCall → Surroundings → Prop) (kept known applies : Prop)
    (p : Session.Published) (status : TerminalStatus) (w : World) : Prop :=
  w.current = me → (kept → Synced node w p) ∧
    (known → status ≠ .conflict ∧ (Reliable ok → applies → status = .applied))

variable {kept known applies : Prop} {status : TerminalStatus}

theorem Shows.ends (h : Shows node me p w)
    (hStatus : known → status ≠ .conflict) (hApplied : known → Reliable ok → ¬ applies) :
    Ends node me ok kept known applies p status w :=
  fun hMe => ⟨fun _ => h hMe, fun hKnown => ⟨hStatus hKnown, fun hReliable hApplies =>
    absurd hApplies (hApplied hKnown hReliable)⟩⟩

theorem ends_of_lost (hStatus : status ≠ .conflict)
    (hKept : ¬ kept) (hReliable : ¬ Reliable ok) : Ends node me ok kept known applies p status w :=
  fun _ => ⟨fun h => absurd h hKept, fun _ => ⟨hStatus, fun h => absurd h hReliable⟩⟩

variable {command : UpdateConfigCommand} {snapshot : RuntimeSnapshot} {published : Session.Published}
  {target : UserLimitTarget} {patch : UserLimitsPatch}

theorem validatePersistedSnapshot_backend {ctx : RuntimeValidationCtx}
    (h : snapshot.limits.validate ctx = []) : validatePersistedSnapshot (backendSnapshot snapshot) ctx = .ok () := by
  unfold validatePersistedSnapshot
  rw [if_neg fun hSchema => hSchema rfl]
  exact if_pos h

theorem Shows.confirmRuntime (h : Shows node me p w)
    (hConfirmed : ConfirmedRuntime node me (backendSnapshot snapshot) w w') :
    Shows node me (p.publishRuntime (sessionRuntime snapshot)) w' := by
  intro hMe
  obtain ⟨hStart, hLast, ⟨row, hRow, hObserved⟩, hLimits⟩ := hConfirmed hMe
  refine ⟨⟨row, hRow, by rw [hLast, hObserved], by rw [hObserved]; rfl⟩, fun target => ?_⟩
  rw [hLimits]
  exact (h hStart).limits target

theorem meets_commitUpdate (rules : CallRules node me ok) (hShows : Shows node me p w)
    (hVersion : snapshot.version = p.runtime.version + 1) (hValid : snapshot.limits.validate node.validationCtx = []) :
    MeetsNode node me ok ((node.management me).commitUpdate p pending snapshot)
      (fun r w => Ends node me ok (Faithful ok) known applies r.2 r.1.terminalStatus w) w := by
  have hDesired := validatePersistedSnapshot_backend hValid
  refine meets_casRuntime rules hDesired (.inl hVersion) ?_ ?_ ?_ ?_
  · intro w' hRely hMe hInv
    have hSynced := hShows.steady (steady_of_rely hRely) hMe
    refine ⟨fun row hRow => hSynced.version hInv hRow, fun hNone => ?_⟩
    obtain ⟨row, hRow, -⟩ := hSynced.runtime
    rw [hRow] at hNone
    cases hNone
  · intro w' hSteady hPrepared
    refine meets_nowMs fun now => ?_
    refine meets_observeRuntime rfl hDesired hPrepared ?_ ?_ ?_ ?_
    · intro w'' hConfirmed
      refine meets_done fun w₃ hSteady' _ hMe => ?_
      exact ⟨fun _ => (((hShows.steady hSteady).confirmRuntime hConfirmed).steady hSteady') hMe,
        fun _ => ⟨nofun, fun _ _ => rfl⟩⟩
    · intro w'' hNot
      refine meets_reportRuntime fun w₃ _ hSteady' => ?_
      exact meets_done_fenced fun hMe => hNot (hSteady' hMe).1
    · intro w'' error hSteady' hFailed
      refine meets_reportRuntime fun w₃ _ hSteady'' => ?_
      refine meets_done fun w₄ hSteady₃ _ => ?_
      exact (hShows.steady (((hSteady.trans hSteady').trans hSteady'').trans hSteady₃)).ends
        (nofun) fun _ hReliable => absurd hReliable hFailed
    · intro w'' error hFaithful hFailed
      refine meets_reportRuntime fun w₃ _ _ => meets_done fun w₄ _ _ => ?_
      exact ends_of_lost nofun hFaithful hFailed
  · exact fun w' hNot => meets_done_fenced hNot
  · intro w' error hSteady hFailed
    refine meets_done fun w'' hSteady' _ => ?_
    exact (hShows.steady (hSteady.trans hSteady')).ends (nofun) fun _ hReliable => absurd hReliable hFailed

def publishedLimits (runtime : Session.RuntimeLimits) : RuntimeSnapshot :=
  ⟨runtime.version, ⟨runtime.maxBytesPerSecPerAllocation, runtime.maxPerUser, runtime.maxAllocations⟩⟩

def updatePatch (command : UpdateConfigCommand) : DynamicLimitsPatch :=
  ⟨command.maxBytesPerSecPerAllocation, command.maxAllocationsPerUser, command.maxAllocations⟩

structure UpdateApplies (node : NodeSetup) (p : Session.Published) (command : UpdateConfigCommand) : Prop where
  changes : (publishedLimits p.runtime).candidate (updatePatch command) ≠ (publishedLimits p.runtime).limits
  valid : ((publishedLimits p.runtime).candidate (updatePatch command)).validate node.validationCtx = []
  room : p.runtime.version + 1 < 2 ^ 64

theorem UpdateApplies.apply (h : UpdateApplies node p command)
    (hVersion : command.expectedVersion = p.runtime.version) :
    (publishedLimits p.runtime).apply (updatePatch command) command.expectedVersion node.validationCtx =
      .ok ⟨⟨p.runtime.version + 1, (publishedLimits p.runtime).candidate (updatePatch command)⟩, true⟩ := by
  have hVersion : command.expectedVersion = (publishedLimits p.runtime).version := hVersion
  unfold RuntimeSnapshot.apply
  rw [if_neg (not_not.mpr hVersion), if_neg h.changes, if_neg (not_not.mpr h.valid)]
  exact if_pos h.room

theorem UpdateApplies.not_isEmpty (h : UpdateApplies node p command) : (updatePatch command).isEmpty ≠ true := by
  intro hEmpty
  simp only [DynamicLimitsPatch.isEmpty, Bool.and_eq_true, Option.isNone_iff_eq_none] at hEmpty
  obtain ⟨⟨hBytes, hUser⟩, hAlloc⟩ := hEmpty
  refine h.changes ?_
  unfold candidate
  rw [hBytes, hUser, hAlloc]
  rfl

theorem meets_evaluateUpdate (rules : CallRules node me ok) (hShows : Shows node me p w) :
    MeetsNode node me ok ((node.management me).evaluateUpdate p pending command)
      (fun r w => Ends node me ok (Faithful ok) (command.expectedVersion = p.runtime.version)
        (UpdateApplies node p command) r.2 r.1.terminalStatus w) w := by
  have hStays {r : UpdateConfigResult}
      (hStatus : command.expectedVersion = p.runtime.version → r.terminalStatus ≠ .conflict)
      (hApplies : command.expectedVersion = p.runtime.version → ¬ UpdateApplies node p command) :
      MeetsNode node me ok (@Prog.done nodeService _ (r, p)) (fun r w => Ends node me ok (Faithful ok)
        (command.expectedVersion = p.runtime.version) (UpdateApplies node p command) r.2 r.1.terminalStatus w) w :=
    meets_done fun w' hSteady _ => (hShows.steady hSteady).ends hStatus fun hKnown _ => hApplies hKnown
  unfold evaluateUpdate
  simp only
  split
  · next hEmpty => exact hStays (nofun) fun _ hApplies => hApplies.not_isEmpty hEmpty
  split
  · next hApply =>
    exact hStays (fun hKnown => absurd hApply (apply_not_mismatch hKnown)) fun hKnown _ =>
      apply_not_mismatch hKnown hApply
  · next hApply =>
    refine hStays (nofun) fun hKnown hApplies => ?_
    cases hApply.symm.trans (hApplies.apply hKnown)
  · next applied hApply =>
    split
    · next hChanged =>
      refine hStays (nofun) fun hKnown hApplies => ?_
      cases hApply.symm.trans (hApplies.apply hKnown)
      cases hChanged
    · next hChanged =>
      obtain ⟨-, hVersion, hValid⟩ := apply_changed hApply (by simpa using hChanged)
      exact meets_commitUpdate rules hShows hVersion hValid

theorem Shows.confirmLimits {next : Session.UserLimitsSnapshot} (h : Shows node me p w) (hPlain : PlainPatch patch)
    (hNext : snapshotWithPatch p target patch = .ok next) (hRuntime : published.runtime = p.runtime)
    (hOverride : ∀ t, overrideOf published.userLimits t = overrideOf next t)
    (hConfirmed : ConfirmedLimits node me target.subjectKey patch w w') : Shows node me published w' := by
  intro hMe
  obtain ⟨hStart, hLast, hRow, hPatch⟩ := hConfirmed hMe
  obtain ⟨hSynced, hLimits⟩ := h hStart
  refine ⟨?_, fun t => ?_⟩
  · rw [hRow, hLast, hRuntime]
    exact hSynced
  rw [hOverride, override_snapshotWithPatch hPlain hNext, hPatch]
  split
  · rfl
  · exact hLimits t

theorem Shows.rollback (h : Shows node me p w) (hRuntime : published.runtime = p.runtime)
    (hRoom : published.userLimits.generation + 1 < 2 ^ 64) :
    Shows node me (published.publishUserLimits p.userLimits).2 w := by
  intro hMe
  obtain ⟨hSynced, hLimits⟩ := h hMe
  obtain ⟨p', hPublished, hShown⟩ := @publishUserLimits_room published p.userLimits hRoom
  rw [hPublished]
  cases hShown with
  | shown hRuntime' hOverride hGeneration =>
    refine ⟨?_, fun t => (hOverride t).trans (hLimits t)⟩
    rw [hRuntime', hRuntime]
    exact hSynced

structure LimitsApply (p : Session.Published) (previousVersion : Nat) (previousPatch patch : UserLimitsPatch) : Prop where
  changes : mergePatch previousPatch patch ≠ previousPatch
  room : previousVersion + 1 < 2 ^ 64
  generations : p.userLimits.generation + 1 < 2 ^ 64

/-- There is room to take a publication back. -/
def LimitsKept (ok : World → NodeCall → Surroundings → Prop) (p : Session.Published) : Prop :=
  Faithful ok ∧ (¬ Reliable ok → p.userLimits.generation + 2 < 2 ^ 64)

theorem meets_confirmLimits {previousVersion : Nat} {previousPatch : UserLimitsPatch} (hShows : Shows node me p w)
    (hPlain : PlainPatch (mergePatch previousPatch patch)) (hPrepared : w.current = me →
      ∃ row, w.limitsRow node.nodeId target.subjectKey = some row ∧ row.desiredVersion = previousVersion + 1) :
    MeetsNode node me ok ((node.management me).confirmLimits p pending target previousVersion previousPatch
      (mergePatch previousPatch patch))
      (fun r w => Ends node me ok (LimitsKept ok p) known (LimitsApply p previousVersion previousPatch patch) r.2
        r.1.terminalStatus w) w := by
  obtain ⟨next, hNext⟩ := snapshotWithPatch_ok p target (mergePatch previousPatch patch)
  have hPublishes := publishesLimits p next
  unfold confirmLimits
  simp only [hNext]
  generalize p.publishUserLimits next = result at hPublishes ⊢
  cases hPublishes with
  | exhausted hGeneration =>
    refine meets_done fun w' hSteady _ => ?_
    refine (hShows.steady hSteady).ends (nofun) fun _ _ hApplies => ?_
    exact absurd hApplies.generations (Nat.not_lt.mpr hGeneration)
  | @shown published hRuntime hOverride hGeneration =>
    refine meets_usage fun used => meets_nowMs fun now => ?_
    refine meets_observeLimits hPlain hPrepared ?_ ?_ ?_ ?_
    · intro w' hConfirmed
      refine meets_done fun w'' hSteady _ hMe => ?_
      exact ⟨fun _ => ((hShows.confirmLimits hPlain hNext hRuntime hOverride hConfirmed).steady hSteady) hMe,
        fun _ => ⟨nofun, fun _ _ => rfl⟩⟩
    · intro w' hNot
      refine meets_reportLimits fun w'' _ hSteady => ?_
      exact meets_done_fenced fun hMe => hNot (hSteady hMe).1
    · intro w' error hSteady hFailed
      refine meets_reportLimits fun w'' _ hSteady' => ?_
      refine meets_done fun w₃ hSteady'' _ hMe => ⟨fun hKept => ?_, fun _ => ⟨nofun, ?_⟩⟩
      · have hRoom := hKept.2 hFailed
        exact (hShows.steady ((hSteady.trans hSteady').trans hSteady'')).rollback hRuntime (by omega) hMe
      · exact fun hReliable => absurd hReliable hFailed
    · intro w' error hFaithful hFailed
      refine meets_reportLimits fun w'' _ _ => meets_done fun w₃ _ _ => ?_
      exact ends_of_lost nofun (fun hKept => hFaithful hKept.1) hFailed

theorem meets_evaluateLimits (rules : CallRules node me ok) {command : SetUserLimitsCommand}
    {state : Option UserLimitsState} (hShows : Shows node me p w)
    (hTarget : validateTarget command.target = .ok ()) (hPatch : validatePatch command.patch = .ok ())
    (hPlain : PlainPatch ((state.map observedPatch).getD .default))
    (hState : w.current = me → w.limitsRow node.nodeId command.target.subjectKey = state) :
    MeetsNode node me ok ((node.management me).evaluateLimits p pending command state)
      (fun r w => Ends node me ok (LimitsKept ok p)
        (command.expectedVersion = (state.map observedVersion).getD 0)
        (LimitsApply p ((state.map observedVersion).getD 0)
          ((state.map observedPatch).getD .default) command.patch) r.2 r.1.terminalStatus w) w := by
  unfold evaluateLimits
  simp only
  split
  · next hVersion =>
    refine meets_usage fun used => meets_done fun w' hSteady _ => ?_
    exact (hShows.steady hSteady).ends (fun hKnown => absurd hKnown hVersion) fun hKnown => absurd hKnown hVersion
  split
  · next hSame =>
    refine meets_usage fun used => meets_done fun w' hSteady _ => ?_
    exact (hShows.steady hSteady).ends (by rintro _ ⟨⟩) fun _ _ hApplies =>
      hApplies.changes hSame
  split
  · next hFull =>
    refine meets_done fun w' hSteady _ => ?_
    exact (hShows.steady hSteady).ends (by rintro _ ⟨⟩) fun _ _ hApplies =>
      absurd hApplies.room (Nat.not_lt.mpr hFull)
  next hFull =>
  refine meets_casLimits rules ⟨rfl, hTarget⟩ (Nat.lt_of_not_le hFull) ?_ ?_ ?_ ?_
  · intro hMe
    rw [World.limitsVersion, hState hMe]
  · intro w' hSteady hPrepared
    exact meets_confirmLimits (hShows.steady hSteady) (hPlain.merge hPatch) hPrepared
  · exact fun w' hNot => meets_usage fun used => meets_done_fenced hNot
  · intro w' error hSteady hFailed
    refine meets_done fun w'' hSteady' _ => ?_
    exact (hShows.steady (hSteady.trans hSteady')).ends (by rintro _ ⟨⟩) fun _ hReliable => absurd hReliable hFailed

/-! ## Replay and record -/

def LeavesRows {α : Type} (node : NodeSetup) (me : String) (ok : World → NodeCall → Surroundings → Prop)
    (prog : Manage α) : Prop :=
  ∀ w, prog.Meets (nodeDiscipline node me ok) (fun _ w' => (nodeDiscipline node me ok).rely w w') w

theorem LeavesRows.bind {α β : Type} {prog : Manage α} {next : α → Manage β} {post : β → World → Prop}
    (h : LeavesRows node me ok prog) (hNext : ∀ a w', (nodeDiscipline node me ok).rely w w' → Durable node w' →
      MeetsNode node me ok (next a) post w') :
    MeetsNode node me ok (prog >>= next) post w :=
  ((h w).mono fun a w' hInv hRely => hNext a w' hRely hInv).bind

theorem leavesRows_pure {α : Type} (a : α) : LeavesRows node me ok (pure a) := fun _ _ hRely _ => hRely

theorem leavesRows_quiet {α : Type} {c : BackendCall} {next : Except BackendError c.Value → Manage α}
    (hQuiet : c.quiet = true) (hNext : ∀ answer, LeavesRows node me ok (next answer)) :
    LeavesRows node me ok (@Prog.call nodeService α (.backend c) next) := by
  intro w
  refine meets_quiet hQuiet fun w' hRely _ _ _ answer _ => ?_
  exact (hNext answer w').mono fun _ _ _ hRely' => (nodeDiscipline node me ok).rely_trans hRely hRely'

theorem leavesRows_durableReplay {T : Type} (decode : ResultText → Option T) (pending : PendingCommand)
    (payloadHash : String) : LeavesRows node me ok (durableReplay decode pending payloadHash) := by
  unfold durableReplay
  split
  · exact leavesRows_pure _
  refine leavesRows_quiet rfl fun answer => ?_
  rcases answer with error | _ | rec <;> exact leavesRows_pure _

theorem leavesRows_storedTerminalResult (last : Option AppliedOperation) (pending : PendingCommand)
    (payloadHash : String) :
    LeavesRows node me ok (storedTerminalResult last pending payloadHash) := by
  unfold storedTerminalResult
  split
  · exact leavesRows_pure _
  split
  · exact leavesRows_pure _
  refine leavesRows_quiet rfl fun answer => ?_
  rcases answer with error | _ | rec <;> exact leavesRows_pure _

theorem leavesRows_recordTerminalOutcome (pending : PendingCommand) (outcome : TerminalStatus)
    (status : CommandStatus) (body : ResultText) :
    LeavesRows node me ok (recordTerminalOutcome pending outcome status body) := by
  unfold recordTerminalOutcome
  split
  · exact leavesRows_pure _
  intro w
  refine meets_nowMs fun now => ?_
  refine leavesRows_quiet rfl (fun answer => ?_) w
  cases answer with
  | ok _ => exact leavesRows_pure _
  | error error =>
    refine leavesRows_quiet rfl fun answer => ?_
    rcases answer with error | _ | rec
    · exact leavesRows_pure _
    · exact leavesRows_pure _
    · simp only [Prog.bind]
      split <;> exact leavesRows_pure _

/-! ## Commands -/

theorem Shows.meets_done {α : Type} {a : α} (h : Shows node me p w) :
    MeetsNode node me ok (@Prog.done nodeService (α × Session.Published) (a, p))
      (fun r w => Shows node me r.2 w) w :=
  Node.meets_done fun _ hSteady _ => h.steady hSteady

theorem Ends.shows (h : Ends node me ok kept known applies p status w) (hKept : kept) : Shows node me p w :=
  fun hMe => (h hMe).1 hKept

theorem meets_applyUpdateConfigInner (rules : CallRules node me ok) (hFaithful : Faithful ok) (hShows : Shows node me p w) :
    MeetsNode node me ok ((node.management me).applyUpdateConfigInner p pending)
      (fun r w => Shows node me r.2 w) w := by
  have hEvaluate {w' : World} {command : UpdateConfigCommand} (hShows : Shows node me p w') :=
    (@meets_evaluateUpdate node me ok w' p pending command rules hShows).mono fun r w _ h => h.shows hFaithful
  refine (leavesRows_durableReplay _ _ _).bind fun stored w' hRely _ => ?_
  have hShows := hShows.steady (steady_of_rely hRely)
  cases stored with
  | some stored => exact hShows.meets_done
  | none =>
    simp only
    split
    · exact hShows.meets_done
    split
    · exact hShows.meets_done
    split
    · exact hShows.meets_done
    refine meets_quiet rfl fun w'' hRely' _ _ _ answer _ => ?_
    have hShows := hShows.steady (steady_of_rely hRely')
    cases answer with
    | error error => exact hShows.meets_done
    | ok state =>
      refine (leavesRows_storedTerminalResult _ _ _).bind fun stored w₃ hRely'' _ => ?_
      have hShows := hShows.steady (steady_of_rely hRely'')
      cases stored with
      | none => exact hEvaluate hShows
      | some stored =>
        simp only
        split
        · exact hShows.meets_done
        · exact hEvaluate hShows

theorem checkLimitsCommand_ok {m : RuntimeManagement} {command : SetUserLimitsCommand}
    (h : m.checkLimitsCommand pending command = .ok ()) :
    validateTarget command.target = .ok () ∧ validatePatch command.patch = .ok () := by
  unfold checkLimitsCommand at h
  by_cases hSchema : command.schemaVersion ≠ commandSchemaVersion
  · rw [if_pos hSchema] at h
    cases h
  rw [if_neg hSchema] at h
  cases hNode : m.checkCommandTarget pending with
  | error error =>
    rw [hNode] at h
    cases h
  | ok u =>
    cases hTarget : validateTarget command.target with
    | error error =>
      rw [hNode, hTarget] at h
      cases h
    | ok u =>
      cases hPatch : validatePatch command.patch with
      | error error =>
        rw [hNode, hTarget, hPatch] at h
        cases h
      | ok u => exact ⟨rfl, rfl⟩

theorem Durable.plain (hInv : Durable node w) (key : String) :
    PlainPatch (((w.log.backend.getUserLimitsState node.nodeId key).map observedPatch).getD
      .default) := by
  cases hRow : w.log.backend.getUserLimitsState node.nodeId key with
  | none => exact plainPatch_default
  | some row => exact (hInv.limits key row hRow).2.2.observed

theorem meets_applySetUserLimitsInner (rules : CallRules node me ok) (hKept : LimitsKept ok p)
    (hShows : Shows node me p w) :
    MeetsNode node me ok ((node.management me).applySetUserLimitsInner p pending)
      (fun r w => Shows node me r.2 w) w := by
  refine (leavesRows_durableReplay _ _ _).bind fun stored w' hRely _ => ?_
  have hShows := hShows.steady (steady_of_rely hRely)
  cases stored with
  | some stored => exact hShows.meets_done
  | none =>
    simp only
    split
    · exact hShows.meets_done
    next command hParse =>
    split
    · exact hShows.meets_done
    next hCheck =>
    obtain ⟨hTarget, hPatch⟩ := checkLimitsCommand_ok hCheck
    refine meets_quiet rfl fun w'' hRely' hInv env _ answer hAnswer => ?_
    have hShows := hShows.steady (steady_of_rely hRely')
    cases answer with
    | error error => exact hShows.meets_done
    | ok state =>
      have hEvaluate {w₃ : World} (hRely : (nodeDiscipline node me ok).rely w'' w₃) :
          MeetsNode node me ok ((node.management me).evaluateLimits p pending command state)
            (fun r w => Shows node me r.2 w) w₃ := by
        obtain hState | ⟨⟨error, hError⟩, -⟩ := hAnswer
        · cases hState
          refine (meets_evaluateLimits rules (hShows.steady (steady_of_rely hRely)) hTarget hPatch (hInv.plain _)
            fun hMe => ?_).mono fun r w _ h => h.shows hKept
          exact (hRely hMe).2.limitsRow node.nodeId _
        · cases hError
      refine (leavesRows_storedTerminalResult _ _ _).bind fun stored w₃ hRely'' _ => ?_
      cases stored with
      | none => exact hEvaluate hRely''
      | some stored =>
        simp only
        split
        · exact (hShows.steady (steady_of_rely hRely'')).meets_done
        · exact hEvaluate hRely''

theorem meets_applyUpdateConfig (rules : CallRules node me ok) (hFaithful : Faithful ok) (hShows : Shows node me p w) :
    MeetsNode node me ok ((node.management me).applyUpdateConfig p pending)
      (fun r w => Shows node me r.2 w) w := by
  refine Prog.Meets.bind ((meets_applyUpdateConfigInner rules hFaithful hShows).mono fun r w' _ hShows => ?_)
  refine (leavesRows_recordTerminalOutcome _ _ _ _).bind fun outcome w'' hRely _ => ?_
  have hShows : Shows node me r.2 w'' := hShows.steady (steady_of_rely hRely)
  cases outcome with
  | durable body | retryLater => exact hShows.meets_done

theorem meets_applySetUserLimits (rules : CallRules node me ok) (hKept : LimitsKept ok p)
    (hShows : Shows node me p w) :
    MeetsNode node me ok ((node.management me).applySetUserLimits p pending)
      (fun r w => Shows node me r.2 w) w := by
  refine Prog.Meets.bind ((meets_applySetUserLimitsInner rules hKept hShows).mono fun r w' _ hShows => ?_)
  refine (leavesRows_recordTerminalOutcome _ _ _ _).bind fun outcome w'' hRely _ => ?_
  have hShows : Shows node me r.2 w'' := hShows.steady (steady_of_rely hRely)
  cases outcome with
  | durable body | retryLater => exact hShows.meets_done

def AtRest (node : NodeSetup) (me : String) (result : Option Session.Published) (w : World) : Prop :=
  w.current = me → ∃ p, result = some p ∧ Synced node w p

def Job.appliesCommand : Job → Bool
  | .updateConfig _ => true
  | .setUserLimits _ => true
  | .tick => false

theorem meets_jobProg (rules : CallRules node me ok) (hFaithful : Faithful ok) {job : Job} (hJob : job.appliesCommand = true)
    (hShows : Shows node me p w) (hRoom : ¬ Reliable ok → p.userLimits.generation + 2 < 2 ^ 64) :
    MeetsNode node me ok (node.jobProg me p job) (AtRest node me) w := by
  have hRest {r : Option (CommandStatus × ResultText) × Session.Published} {w' : World} (h : Shows node me r.2 w') :
      MeetsNode node me ok (pure (some r.2) : Manage _) (AtRest node me) w' :=
    meets_done fun w'' hSteady _ hMe => ⟨r.2, rfl, h.steady hSteady hMe⟩
  cases job with
  | updateConfig pending =>
    exact Prog.Meets.bind ((meets_applyUpdateConfig rules hFaithful hShows).mono fun r w' _ h => hRest h)
  | setUserLimits pending =>
    exact Prog.Meets.bind ((meets_applySetUserLimits rules ⟨hFaithful, hRoom⟩ hShows).mono fun r w' _ h => hRest h)
  | tick => cases hJob

end Tasks

end Turna.Node
