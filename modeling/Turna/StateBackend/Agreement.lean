import Turna.StateBackend.Journal

/-! # Results in the log and in the journal

A closed command and the record of its key report one result, and no result is ever replaced, as long as a
command whose record is settled is closed with the recorded result.
-/

namespace Turna.StateBackend
open Lib ManagementBackend HashMap List PendingCommand

structure LogKept (h h' : LogHistory) : Prop where
  commands : ∀ id c, h.command id = some c → c.status.terminal = true → h'.command id = some c
  entries : ∀ key r, h.entry key = some r → r.finalStatus.isSome = true → h'.entry key = some r

theorem LogKept.refl (h : LogHistory) : LogKept h h := ⟨fun _ _ hGet _ => hGet, fun _ _ hGet _ => hGet⟩

theorem LogKept.trans {h h' h'' : LogHistory} (h₁ : LogKept h h') (h₂ : LogKept h' h'') : LogKept h h'' where
  commands id c hGet hTerminal := h₂.commands id c (h₁.commands id c hGet hTerminal) hTerminal
  entries key r hGet hSettled := h₂.entries key r (h₁.entries key r hGet hSettled) hSettled

/-- A closed command reports what its record holds, and the record of an open one holds, if anything, a result that
can be read for its operation. -/
structure LogAgrees (accepts : String → String → Prop) (reads : String → ResultText → Prop) (h : LogHistory) :
    Prop where
  journal : JournalInvariant h
  own : ∀ id c, h.command id = some c → c.requestId = id ∧ c.idempotencyKey.isEmpty = false ∧ accepts c.op c.payloadJson
  present : ∀ key r, h.entry key = some r → ∃ c, h.command r.requestId = some c
  agrees : ∀ id c r, h.command id = some c → h.entry c.idempotencyKey = some r → c.status.terminal = true →
    c.result = r.result
  reads : ∀ id c r, h.command id = some c → h.entry c.idempotencyKey = some r → c.status.terminal = false →
    r.finalStatus.isSome = true → reads c.op r.result

structure PendingCommand.SameWork (c c' : PendingCommand) : Prop extends c.SameRequest c' where
  op : c'.op = c.op
  payloadJson : c'.payloadJson = c.payloadJson
  isOpen : c'.status.terminal = false → c.status.terminal = false

theorem PendingCommand.SameWork.refl (c : PendingCommand) : c.SameWork c := ⟨⟨rfl, rfl, rfl⟩, rfl, rfl, fun hOpen => hOpen⟩

namespace LogAgrees

variable {accepts : String → String → Prop} {reads : String → ResultText → Prop} {h h' : LogHistory} {id : String}
  {c : PendingCommand}

theorem new : LogAgrees accepts reads .new where
  journal := .new
  own _ _ hGet := by cases hGet
  present _ _ hGet := by cases hGet
  agrees _ _ _ hGet := by cases hGet
  reads _ _ _ hGet := by cases hGet

section

variable (hInv : LogAgrees accepts reads h)
include hInv

theorem record (hGet : h.command id = some c) :
    ∃ r, h.entry c.idempotencyKey = some r ∧ r.requestId = id ∧ r.payloadHash = c.payloadHash ∧
      (c.status.terminal = true → r.finalStatus.isSome = true) :=
  hInv.journal.guards id c hGet (hInv.own id c hGet).2.1

theorem id_of_key {id' : String} {c' : PendingCommand} (hGet : h.command id = some c)
    (hGet' : h.command id' = some c') (hKey : c'.idempotencyKey = c.idempotencyKey) : id' = id := by
  obtain ⟨r, hEntry, hId, -⟩ := hInv.record hGet
  obtain ⟨r', hEntry', hId', -⟩ := hInv.record hGet'
  rw [hKey, hEntry] at hEntry'
  cases hEntry'
  exact hId'.symm.trans hId

theorem step (hJournal : JournalInvariant h') (hKept : LogKept h h')
    (hStay : ∀ id c, h.command id = some c → ∃ c', h'.command id = some c')
    (hCommands : ∀ id c', h'.command id = some c' → (∃ c, h.command id = some c ∧ c.SameWork c' ∧
        (c'.status.terminal = true → c' = c ∨ ∀ r', h'.entry c.idempotencyKey = some r' → c'.result = r'.result)) ∨
      c'.requestId = id ∧ c'.idempotencyKey.isEmpty = false ∧ accepts c'.op c'.payloadJson ∧
        c'.status.terminal = false ∧ ∀ r', h'.entry c'.idempotencyKey = some r' → r'.finalStatus = none)
    (hEntries : ∀ key r', h'.entry key = some r' → (∃ r, h.entry key = some r ∧ r'.requestId = r.requestId ∧
        (r' = r ∨ ∀ id c', h'.command id = some c' → c'.idempotencyKey = key → c'.status.terminal = false →
          reads c'.op r'.result)) ∨
      r'.finalStatus = none ∧ ∃ c, h'.command r'.requestId = some c) : LogAgrees accepts reads h' ∧ LogKept h h' := by
  refine ⟨⟨hJournal, fun id c' hGet' => ?_, fun key r' hEntry' => ?_, fun id c' r' hGet' hEntry' hTerminal => ?_,
    fun id c' r' hGet' hEntry' hOpen hSettled => ?_⟩, hKept⟩
  · obtain ⟨c, hGet, hSame, -⟩ | ⟨hId, hKey, hAccepts, -⟩ := hCommands id c' hGet'
    · rw [hSame.requestId, hSame.key, hSame.op, hSame.payloadJson]
      exact hInv.own id c hGet
    · exact ⟨hId, hKey, hAccepts⟩
  · obtain ⟨r, hEntry, hId, -⟩ | ⟨-, hPresent⟩ := hEntries key r' hEntry'
    · obtain ⟨c, hGet⟩ := hInv.present key r hEntry
      rw [hId]
      exact hStay _ c hGet
    · exact hPresent
  · obtain ⟨c, hGet, hSame, hClosed⟩ | ⟨-, -, -, hOpen, -⟩ := hCommands id c' hGet'
    · obtain rfl | hResult := hClosed hTerminal
      · obtain ⟨r, hEntry, -, -, hSettled⟩ := hInv.record hGet
        cases hEntry'.symm.trans (hKept.entries _ r hEntry (hSettled hTerminal))
        exact hInv.agrees id c' r' hGet hEntry hTerminal
      · exact hResult r' (hSame.key ▸ hEntry')
    · cases hOpen.symm.trans hTerminal
  · obtain ⟨r, hEntry, -, rfl | hReads⟩ | ⟨hNone, -⟩ := hEntries _ r' hEntry'
    · obtain ⟨c, hGet, hSame, -⟩ | ⟨-, -, -, -, hNone⟩ := hCommands id c' hGet'
      · rw [hSame.op]
        exact hInv.reads id c r' hGet (hSame.key ▸ hEntry) (hSame.isOpen hOpen) hSettled
      · simp [hNone r' hEntry'] at hSettled
    · exact hReads id c' hGet' rfl hOpen
    · simp [hNone] at hSettled

theorem settle (hJournal : JournalInvariant h') (hCommands : ∀ id, h'.command id = h.command id)
    (hEntries : ∀ key, h'.entry key = h.entry key ∨ ∃ r status result at', h.entry key = some r ∧
      r.finalStatus = none ∧ h'.entry key = some (r.finish status result at') ∧
        ∀ id c, h.command id = some c → c.idempotencyKey = key → reads c.op result) :
    LogAgrees accepts reads h' ∧ LogKept h h' := by
  refine hInv.step hJournal ⟨fun id c hGet _ => (hCommands id).trans hGet, fun key r hEntry hSettled => ?_⟩
    (fun id c hGet => ⟨c, (hCommands id).trans hGet⟩)
    (fun id c' hGet' => .inl ⟨c', (hCommands id).symm.trans hGet', .refl c', fun _ => .inl rfl⟩) fun key r' hEntry' => ?_
  · obtain hSame | ⟨r', status, result, at', hEntry', hNone, -, -⟩ := hEntries key
    · exact hSame.trans hEntry
    · rw [hEntry] at hEntry'
      cases hEntry'
      simp [hNone] at hSettled
  · obtain hSame | ⟨r, status, result, at', hEntry, hNone, hAfter, hReads⟩ := hEntries key
    · exact .inl ⟨r', hSame ▸ hEntry', rfl, .inl rfl⟩
    · rw [hAfter, IdempotencyRecord.finish_open hNone] at hEntry'
      cases hEntry'
      exact .inl ⟨r, hEntry, rfl, .inr fun id c hGet hKey _ => hReads id c ((hCommands id).symm.trans hGet) hKey⟩

theorem finish {status : CommandStatus} {result : ResultText} {now : Nat}
    (hGet : h.command id = some c) (hOpen : c.status.terminal = false) (hStatus : status.terminal = true)
    (hResult : ∀ r, h.entry c.idempotencyKey = some r → r.finalStatus.isSome = true → r.result = result)
    (hBackend : h'.backend = h.backend.finishCommand id c status result now) (hApply : h'.byApply = h.byApply) :
    LogAgrees accepts reads h' ∧ LogKept h h' := by
  obtain ⟨-, hKey, -⟩ := hInv.own id c hGet
  have hCommand (id' : String) : h'.command id' = if id' = id then some (c.finish status result now) else h.command id' := by
    rw [LogHistory.command, hBackend, finishCommand_command]
    rfl
  have hEntry (key : String) : h'.entry key =
      if key = c.idempotencyKey then (h.entry key).map (.finish status result now) else h.entry key := by
    rw [LogHistory.entry, hBackend, finishCommand_entry]
    simp only [hKey, and_true]
    rfl
  refine hInv.step (hInv.journal.finish hGet hBackend hApply)
    ⟨fun id' c' hGet' hTerminal => ?_, fun key r hEntry' hSettled => ?_⟩ (fun id' c' hGet' => ?_)
    (fun id' c' hGet' => ?_) fun key r' hEntry' => ?_
  · rw [hCommand, if_neg, hGet']
    rintro rfl
    rw [hGet] at hGet'
    cases hGet'
    cases hOpen.symm.trans hTerminal
  · rw [hEntry]
    split
    · rw [hEntry', Option.map_some, IdempotencyRecord.finish_settled hSettled]
    · exact hEntry'
  · rw [hCommand]
    split
    · exact ⟨_, rfl⟩
    · exact ⟨c', hGet'⟩
  · rw [hCommand] at hGet'
    split at hGet'
    · next hId =>
      cases hGet'
      refine .inl ⟨c, hId ▸ hGet, ⟨⟨rfl, rfl, rfl⟩, rfl, rfl, fun _ => hOpen⟩, fun _ => .inr fun r' hEntry' => ?_⟩
      rw [hEntry, if_pos rfl] at hEntry'
      obtain ⟨r, hEntry, rfl⟩ := Option.map_eq_some_iff.mp hEntry'
      cases hFinal : r.finalStatus with
      | none => rw [IdempotencyRecord.finish_open hFinal]; rfl
      | some final =>
        have hSettled : r.finalStatus.isSome = true := by rw [hFinal]; rfl
        rw [IdempotencyRecord.finish_settled hSettled]
        exact (hResult r hEntry hSettled).symm
    · exact .inl ⟨c', hGet', .refl c', fun _ => .inl rfl⟩
  · rw [hEntry] at hEntry'
    split at hEntry'
    · next hAt =>
      obtain ⟨r, hEntry, rfl⟩ := Option.map_eq_some_iff.mp hEntry'
      refine .inl ⟨r, hEntry, (r.follows_finish status result now).requestId, .inr fun id' c' hGet' hSame hOpen' => ?_⟩
      rw [hCommand] at hGet'
      split at hGet'
      · cases hGet'
        cases hStatus.symm.trans hOpen'
      · next hId => exact absurd (hInv.id_of_key hGet hGet' (hSame.trans hAt)) hId
    · exact .inl ⟨r', hEntry', rfl, .inl rfl⟩

theorem claim {c' : PendingCommand} (hGet : h.command id = some c)
    (hOpen : c.status.terminal = false) (hOpen' : c'.status.terminal = false) (hSame : c.SameWork c')
    (hCommands : ∀ id', h'.command id' = if id' = id then some c' else h.command id')
    (hEntries : ∀ key, h'.entry key = h.entry key) (hApply : h'.byApply = h.byApply) :
    LogAgrees accepts reads h' ∧ LogKept h h' := by
  have hOld {id' : String} {d' : PendingCommand} (hGet' : h'.command id' = some d') : ∃ d, h.command id' = some d ∧
      d.SameWork d' ∧ (d'.status.terminal = true → d' = d) := by
    rw [hCommands] at hGet'
    split at hGet'
    · next hId =>
      cases hGet'
      exact ⟨c, hId ▸ hGet, hSame, fun hTerminal => by cases hOpen'.symm.trans hTerminal⟩
    · exact ⟨d', hGet', .refl d', fun _ => rfl⟩
  refine hInv.step (hInv.journal.commands hEntries hApply fun id' d' hGet' => ?_)
    ⟨fun id' d hGet' hTerminal => ?_, fun key r hEntry _ => (hEntries key).trans hEntry⟩ (fun id' d hGet' => ?_)
    (fun id' d' hGet' => ?_) fun key r hEntry' => .inl ⟨r, (hEntries key).symm.trans hEntry', rfl, .inl rfl⟩
  · obtain ⟨d, hGet, hSame, hEq⟩ := hOld hGet'
    exact ⟨d, hGet, hSame.toSameRequest, fun hTerminal => hEq hTerminal ▸ hTerminal⟩
  · rw [hCommands, if_neg, hGet']
    rintro rfl
    rw [hGet] at hGet'
    cases hGet'
    cases hOpen.symm.trans hTerminal
  · rw [hCommands]
    split
    · exact ⟨_, rfl⟩
    · exact ⟨d, hGet'⟩
  · obtain ⟨d, hGet, hSame, hEq⟩ := hOld hGet'
    exact .inl ⟨d, hGet, hSame, fun hTerminal => .inl (hEq hTerminal)⟩

theorem enqueue {now : Nat} {req : EnqueueRequest}
    (hNew : CommandOp.NewRequest h (.enqueue now req)) (hKey : req.idempotencyKey.isEmpty = false)
    (hAccepts : accepts req.op req.payloadJson) : let h' := CommandOp.apply h (.enqueue now req)
    LogAgrees accepts reads h' ∧ LogKept h h' ∧ (∀ id c, h.command id = some c → h'.command id = some c) ∧
      ∀ key r, h.entry key = some r → h'.entry key = some r := by
  intro h'
  have hJournal : JournalInvariant h' := hInv.journal.effects hNew enqueue_effects
  obtain ⟨hVacant, -⟩ := hNew
  cases hFound : h.entry req.idempotencyKey with
  | some r =>
    have hSame : h'.backend = h.backend := by
      have hGet : h.backend.commandIdempotency.get (req.command now).idempotencyKey = some r := hFound
      have hKey : (req.command now).idempotencyKey.isEmpty = false := hKey
      show (h.backend.enqueueCommand now (req.command now)).2 = h.backend
      unfold enqueueCommand
      rw [hKey, hGet]
      simp only [Bool.false_eq_true, if_false]
      split <;> rfl
    have hEq : h' = h := by
      show { h with backend := h'.backend } = h
      rw [hSame]
    rw [hEq]
    exact ⟨hInv, .refl h, fun _ _ hGet => hGet, fun _ _ hGet => hGet⟩
  | none =>
    have hAfter : (h.backend.enqueueCommand now (req.command now)).2 = { h.backend with
          commandIdempotency := h.backend.commandIdempotency.insert req.idempotencyKey
            ⟨req.requestId, (req.command now).payloadHash, none, .plain "", now, 0⟩ }.insertCommand (req.command now) := by
      have hGet : h.backend.commandIdempotency.get (req.command now).idempotencyKey = none := hFound
      have hKey : (req.command now).idempotencyKey.isEmpty = false := hKey
      unfold enqueueCommand
      rw [hKey, hGet]
      rfl
    have hCommand (id : String) : h'.command id = if id = req.requestId then some (req.command now) else h.command id := by
      show (h.backend.enqueueCommand now (req.command now)).2.commands.get id = _
      rw [hAfter, insertCommand_command]
      have hNone : h.backend.commands.get req.requestId = none := hVacant
      have hId : (req.command now).requestId = req.requestId := rfl
      simp only [hId, hNone, Option.getD_none]
      rfl
    have hEntry (key : String) : h'.entry key = if key = req.idempotencyKey then
        some ⟨req.requestId, (req.command now).payloadHash, none, .plain "", now, 0⟩ else h.entry key := by
      show (h.backend.enqueueCommand now (req.command now)).2.commandIdempotency.get key = _
      rw [hAfter]
      exact get_insert ..
    have hMore {id : String} {c : PendingCommand} (hGet : h.command id = some c) : h'.command id = some c := by
      rw [hCommand, if_neg, hGet]
      rintro rfl
      rw [hVacant] at hGet
      cases hGet
    have hMoreEntries {key : String} {r : IdempotencyRecord} (hGet : h.entry key = some r) : h'.entry key = some r := by
      rw [hEntry, if_neg, hGet]
      rintro rfl
      rw [hFound] at hGet
      cases hGet
    have hAgrees : LogAgrees accepts reads h' ∧ LogKept h h' := by
      refine hInv.step hJournal ⟨fun _ _ hGet _ => hMore hGet, fun _ _ hGet _ => hMoreEntries hGet⟩
        (fun _ c hGet => ⟨c, hMore hGet⟩) (fun id c hGet' => ?_) fun key r hEntry' => ?_
      · rw [hCommand] at hGet'
        split at hGet'
        · next hId =>
          cases hGet'
          refine .inr ⟨hId.symm, hKey, hAccepts, rfl, fun r hEntry' => ?_⟩
          rw [hEntry] at hEntry'
          cases (if_pos rfl).symm.trans hEntry'
          rfl
        · exact .inl ⟨c, hGet', .refl c, fun _ => .inl rfl⟩
      · rw [hEntry] at hEntry'
        split at hEntry'
        · cases hEntry'
          exact .inr ⟨rfl, _, (hCommand _).trans (if_pos rfl)⟩
        · exact .inl ⟨r, hEntry', rfl, .inl rfl⟩
    exact ⟨hAgrees.1, hAgrees.2, fun _ _ => hMore, fun _ _ => hMoreEntries⟩

end

end LogAgrees

/-! ## A claim -/

def ManagementBackend.deadLettersOpen (b : ManagementBackend) (req : ClaimRequest) : Bool :=
  b.commands.entries.all fun e =>
    !(e.2.targets req.nodeId req.incarnation && e.2.claimable req.now && decide (maxCommandAttempts ≤ e.2.attempts)) ||
      !b.settled e.2.idempotencyKey

structure InProgress (h : LogHistory) (claimed : List PendingCommand) : Prop where
  distinct : (claimed.map PendingCommand.requestId).Nodup
  held : ∀ c ∈ claimed, h.command c.requestId = some c ∧ c.status.terminal = false

section Claim

variable {accepts : String → String → Prop} {reads : String → ResultText → Prop} {h₀ : LogHistory} {req : ClaimRequest}

/-- A claim under way. A command it has not changed has the record it had at the start. -/
structure Claiming (accepts : String → String → Prop) (reads : String → ResultText → Prop) (h₀ : LogHistory)
    (acc : List PendingCommand × ManagementBackend) : Prop where
  agrees : LogAgrees accepts reads (claiming h₀ acc)
  kept : LogKept h₀ (claiming h₀ acc)
  progress : InProgress (claiming h₀ acc) acc.1
  untouched : ∀ id c, h₀.command id = some c → (claiming h₀ acc).command id = some c →
    (claiming h₀ acc).entry c.idempotencyKey = h₀.entry c.idempotencyKey
  taken : ∀ c ∈ acc.1, ∃ c₀, h₀.command c.requestId = some c₀ ∧ c₀.attempts < c.attempts

theorem Claiming.next {acc acc' : List PendingCommand × ManagementBackend} {id : String} {c : PendingCommand}
    (h : Claiming accepts reads h₀ acc) (hDead : h₀.backend.deadLettersOpen req = true)
    (hStart : h₀.command id = some c) (hGet : (claiming h₀ acc).command id = some c)
    (hNext : ClaimNext req acc id c acc') : Claiming accepts reads h₀ acc' := by
  have hOther {c' : PendingCommand} (hMem : c' ∈ acc.1) : c'.requestId ≠ id := by
    rintro rfl
    obtain ⟨c₀, hFirst, hMore⟩ := h.taken c' hMem
    cases (h.progress.held c' hMem).1.symm.trans hGet
    cases hFirst.symm.trans hStart
    omega
  cases hNext with
  | skip => exact h
  | deadLetter hTakes hAttempts =>
    have hOpen := not_terminal_of_open (claimable_open hTakes.2)
    have hUnsettled := all_eq_true.mp hDead (id, c) (mem_entries_iff.mpr hStart)
    rw [hTakes.1, hTakes.2, decide_eq_true hAttempts] at hUnsettled
    have hResult : ∀ r, (claiming h₀ acc).entry c.idempotencyKey = some r → r.finalStatus.isSome = true →
        r.result = .deadLetter := by
      intro r hEntry hSettled
      rw [h.untouched id c hStart hGet] at hEntry
      have hEntry : h₀.backend.commandIdempotency.get c.idempotencyKey = some r := hEntry
      simp [ManagementBackend.settled, hEntry, hSettled] at hUnsettled
    obtain ⟨hAgrees, hKept⟩ := @LogAgrees.finish _ _ _ (claiming h₀ (acc.1, acc.2.finishCommand id c .failed .deadLetter
      req.now)) _ _ h.agrees .failed .deadLetter req.now hGet hOpen rfl hResult rfl rfl
    refine ⟨hAgrees, h.kept.trans hKept, ⟨h.progress.distinct, fun c' hMem => ⟨?_, (h.progress.held c' hMem).2⟩⟩,
      fun id' c' hFirst hNow => ?_, h.taken⟩
    · exact ((finishCommand_command ..).trans (if_neg (hOther hMem))).trans (h.progress.held c' hMem).1
    · rw [LogHistory.command, claiming, finishCommand_command] at hNow
      split at hNow
      · next hId =>
        rw [hId, hStart] at hFirst
        cases hFirst
        exact absurd (Option.some.inj hNow) (finish_ne hOpen rfl)
      · next hId =>
        rw [← h.untouched id' c' hFirst hNow]
        exact (finishCommand_entry ..).trans (if_neg fun hKey => hId (h.agrees.id_of_key hGet hNow hKey.1))
  | claim hTakes hAttempts =>
    have hOpen := not_terminal_of_open (claimable_open hTakes.2)
    obtain ⟨hId, -⟩ := h.agrees.own id c hGet
    have hMore : (c.claim req.nodeId (req.token acc.1.length) req.leaseMs req.now).attempts = c.attempts + 1 :=
      attempts_claim hAttempts
    have hOpen' : (c.claim req.nodeId (req.token acc.1.length) req.leaseMs req.now).status.terminal = false := rfl
    have hSame : c.SameWork (c.claim req.nodeId (req.token acc.1.length) req.leaseMs req.now) :=
      ⟨⟨rfl, rfl, rfl⟩, rfl, rfl, fun _ => hOpen⟩
    generalize c.claim req.nodeId (req.token acc.1.length) req.leaseMs req.now = d at hMore hOpen' hSame ⊢
    obtain ⟨hAgrees, hKept⟩ := @LogAgrees.claim _ _ _ (claiming h₀ (acc.1 ++ [d],
      { acc.2 with commands := acc.2.commands.insert id d })) _ _ h.agrees _ hGet hOpen hOpen' hSame
      (fun id' => get_insert ..) (fun _ => rfl) rfl
    refine ⟨hAgrees, h.kept.trans hKept, ⟨?_, ?_⟩, fun id' c' hFirst hNow => ?_, ?_⟩
    · rw [map_append, map_singleton, nodup_append]
      refine ⟨h.progress.distinct, nodup_singleton _, fun a hMem b hB => ?_⟩
      obtain ⟨c', hMem', rfl⟩ := mem_map.mp hMem
      rw [mem_singleton.mp hB, hSame.requestId, hId]
      exact hOther hMem'
    · intro c' hMem
      obtain hMem | hMem := mem_append.mp hMem
      · exact ⟨(get_insert_ne _ _ (hOther hMem)).trans (h.progress.held c' hMem).1, (h.progress.held c' hMem).2⟩
      · rw [mem_singleton.mp hMem, hSame.requestId, hId]
        exact ⟨get_insert_self .., hOpen'⟩
    · rw [LogHistory.command, claiming, get_insert] at hNow
      split at hNow
      · next hId =>
        rw [hId, hStart] at hFirst
        cases hFirst
        cases hNow
        omega
      · exact h.untouched id' c' hFirst hNow
    · intro c' hMem
      obtain hMem | hMem := mem_append.mp hMem
      · exact h.taken c' hMem
      · rw [mem_singleton.mp hMem, hSame.requestId, hId, hMore]
        exact ⟨c, hStart, Nat.lt_succ_self _⟩

theorem claim_agrees (hInv : LogAgrees accepts reads h₀) (hDead : h₀.backend.deadLettersOpen req = true) :
    let h' := CommandOp.apply h₀ (.claim req)
    LogAgrees accepts reads h' ∧ LogKept h₀ h' ∧ InProgress h' (h₀.backend.claimCommands req).1 := by
  have hAfter := @claimCommands_rec req h₀.backend (fun _ acc => Claiming accepts reads h₀ acc)
    ⟨hInv, .refl h₀, ⟨nodup_nil, fun _ hMem => by cases hMem⟩, fun _ _ _ _ => rfl, fun _ hMem => by cases hMem⟩
    fun _ _ _ _ _ hAcc hStart hGet hNext => hAcc.next hDead hStart hGet hNext
  exact ⟨hAfter.agrees, hAfter.kept, hAfter.progress⟩

theorem LogAgrees.stale (hInv : LogAgrees accepts reads h₀) (order : IterOrder) (nodeId incarnation : String)
    (max : Nat) : InProgress h₀ (h₀.backend.listStaleCommands order nodeId incarnation max) := by
  have hMem {e : String × PendingCommand} (hIn : e ∈ order.visit h₀.backend.commands.entries) :
      h₀.command e.1 = some e.2 := (mem_visit_iff order).mp hIn
  have hIds : ((order.visit h₀.backend.commands.entries).map Prod.snd).map requestId =
      (order.visit h₀.backend.commands.entries).map Prod.fst := by
    rw [map_map]
    exact map_congr_left fun e hIn => (hInv.own e.1 e.2 (hMem hIn)).1
  constructor
  · exact (hIds ▸ nodup_visit order h₀.backend.commands).sublist (((take_sublist ..).trans filter_sublist).map _)
  intro c hIn
  obtain ⟨hVisited, hStale⟩ := mem_filter.mp (mem_of_mem_take hIn)
  obtain ⟨e, hEntry, rfl⟩ := mem_map.mp hVisited
  rw [Bool.and_eq_true, Bool.and_eq_true, Bool.not_eq_true'] at hStale
  rw [(hInv.own e.1 e.2 (hMem hEntry)).1]
  exact ⟨hMem hEntry, hStale.1.2⟩

end Claim

end Turna.StateBackend
