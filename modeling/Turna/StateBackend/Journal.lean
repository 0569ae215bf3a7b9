import Turna.StateBackend.Fencing

/-! # The idempotency journal

An outcome is written once. The command and its record agree on the result of an apply unless the
command is closed later with another result: by the dead letter, by a finalization or by a completion
that does not repeat the journal.
-/

namespace Turna.StateBackend
open Lib ManagementBackend Option CommandLogRetention LogHistory

/-- A command whose outcome an apply has written is closed with that outcome. -/
def CommandOp.repeatsJournal (h : LogHistory) (op : CommandOp) : Bool :=
  h.backend.commands.entries.all fun e =>
    (op.ends e.1 e.2).all fun result =>
      !h.byApply.contains e.2.idempotencyKey ||
        (h.entry e.2.idempotencyKey).all fun r => decide (r.result = result)

/-- What is written stays, and a repeated outcome is told from a different one. -/
structure WriteOnce (h : LogHistory) : Prop where
  kept : ∀ ops, Trace.Allowed CommandOp.apply CommandOp.KeepsLog h ops → ∀ key r, h.entry key = some r →
    r.finalStatus.isSome = true → (Trace.run CommandOp.apply h ops).entry key = some r
  same : ∀ key r status at', h.entry key = some r → r.finalStatus.isSome = true →
    h.backend.recordCommandOutcome r.requestId key r.payloadHash status r.result at' = (.ok true, h.backend)
  different : ∀ key r status result at', h.entry key = some r → r.finalStatus.isSome = true → result ≠ r.result →
    ∃ text, h.backend.recordCommandOutcome r.requestId key r.payloadHash status result at' =
      (.error (.conflict text), h.backend)

def JournalAgrees (h : LogHistory) : Prop :=
  ∀ key ∈ h.byApply, ∀ r c, h.entry key = some r → h.backend.getCommand r.requestId = some c →
    c.status.terminal = true → c.result = r.result

/-! ## Records -/

structure IdempotencyRecord.Follows (r r' : IdempotencyRecord) : Prop where
  requestId : r'.requestId = r.requestId
  payloadHash : r'.payloadHash = r.payloadHash
  kept : r.finalStatus.isSome = true → r' = r

theorem IdempotencyRecord.Follows.refl (r : IdempotencyRecord) : r.Follows r := ⟨rfl, rfl, fun _ => rfl⟩

theorem IdempotencyRecord.follows_finish (r : IdempotencyRecord) (status : CommandStatus) (result : ResultText)
    (now : Nat) : r.Follows (r.finish status result now) := by
  cases hFinal : r.finalStatus with
  | some final =>
    rw [finish_settled (by rw [hFinal]; rfl)]
    exact .refl r
  | none =>
    rw [finish_open hFinal]
    refine ⟨rfl, rfl, fun hSettled => ?_⟩
    rw [hFinal] at hSettled
    cases hSettled

theorem IdempotencyRecord.settled_finish (r : IdempotencyRecord) (status : CommandStatus) (result : ResultText)
    (now : Nat) : (r.finish status result now).finalStatus.isSome = true := by
  cases hFinal : r.finalStatus with
  | some final => rw [finish_settled (by rw [hFinal]; rfl), hFinal]; rfl
  | none => rw [finish_open hFinal]; rfl

section Entries

variable {op : CommandOp} {h₀ h h' : LogHistory} {key : String} {r : IdempotencyRecord}

theorem follows_finishCommand {b : ManagementBackend} {id : String} {c : PendingCommand} {status : CommandStatus}
    {result : ResultText} {now : Nat} (hGet : b.commandIdempotency.get key = some r) :
    ∃ r', (b.finishCommand id c status result now).commandIdempotency.get key = some r' ∧ r.Follows r' := by
  rw [finishCommand_entry]
  split
  · rw [hGet]
    exact ⟨_, rfl, r.follows_finish status result now⟩
  · exact ⟨r, hGet, .refl r⟩

theorem LogEffect.entry_follows (hEffect : LogEffect op h₀ h h') (hGet : h.entry key = some r) :
    ∃ r', h'.entry key = some r' ∧ r.Follows r' := by
  cases hEffect with
  | quiet hCommands hJournal | plain hOp hStart hKey hCommands hJournal =>
    exact ⟨r, (hJournal key).trans hGet, .refl r⟩
  | keyed hOp hStart hKey hVacant hCommands hJournal =>
    refine ⟨r, ?_, .refl r⟩
    rw [entry, hJournal, if_neg (fun hEq => by rw [hEq, hVacant] at hGet; cases hGet), hGet]
  | claim => exact ⟨r, hGet, .refl r⟩
  | deadLetter | complete | finalize => exact follows_finishCommand hGet
  | @journal _ key' r' status result at' hOp hAt hOpen hCommands hJournal =>
    rw [entry, hJournal]
    split
    · next hEq =>
      rw [hEq, hAt] at hGet
      cases hGet
      exact ⟨_, rfl, IdempotencyRecord.follows_finish _ status result at'⟩
    · exact ⟨r, hGet, .refl r⟩

theorem LogEffects.entry_kept (hEffects : LogEffects op h₀ h h') (hGet : h.entry key = some r)
    (hSettled : r.finalStatus.isSome = true) : h'.entry key = some r := by
  induction hEffects with
  | refl => exact hGet
  | tail _ hEffect ih =>
    obtain ⟨r', hGet', hFollows⟩ := hEffect.entry_follows ih
    rw [hGet', hFollows.kept hSettled]

theorem entry_kept_run {ops : List CommandOp} (hRun : Trace.Allowed CommandOp.apply CommandOp.KeepsLog h ops)
    (hGet : h.entry key = some r) (hSettled : r.finalStatus.isSome = true) :
    (Trace.run CommandOp.apply h ops).entry key = some r := by
  refine hRun.invariant (fun h => h.entry key = some r) (fun h op hGet hOk => ?_) hGet
  exact LogEffects.entry_kept (CommandOp.effects hOk.1 hOk.2) hGet hSettled

end Entries

/-! ## Commands and their records -/

structure PendingCommand.SameRequest (c c' : PendingCommand) : Prop where
  requestId : c'.requestId = c.requestId
  key : c'.idempotencyKey = c.idempotencyKey
  payload : c'.payloadHash = c.payloadHash

structure JournalInvariant (h : LogHistory) : Prop where
  guards : ∀ id c, h.command id = some c → c.idempotencyKey.isEmpty = false →
    ∃ r, h.entry c.idempotencyKey = some r ∧ r.requestId = id ∧ r.payloadHash = c.payloadHash ∧
      (c.status.terminal = true → r.finalStatus.isSome = true)
  named : ∀ key r c, h.entry key = some r → h.command r.requestId = some c → c.idempotencyKey = key
  keyed : ∀ key r, h.entry key = some r → key.isEmpty = false
  settled : ∀ key ∈ h.byApply, ∃ r, h.entry key = some r ∧ r.finalStatus.isSome = true

namespace JournalInvariant

variable {op : CommandOp} {h₀ h h' : LogHistory}

theorem new : JournalInvariant .new where
  guards _ _ hGet := by cases hGet
  named _ _ _ hGet := by cases hGet
  keyed _ _ hGet := by cases hGet
  settled _ hMem := by cases hMem

/-- No new record appears; a command keeps its key and payload, and when it closes its record is settled. -/
theorem advance (hInv : JournalInvariant h)
    (hRecords : ∀ key r, h.entry key = some r → ∃ r', h'.entry key = some r' ∧ r.Follows r')
    (hOld : ∀ key r', h'.entry key = some r' → ∃ r, h.entry key = some r ∧ r.Follows r')
    (hCommands : ∀ id c', h'.command id = some c' → ∃ c, h.command id = some c ∧ c.SameRequest c' ∧
      (c'.status.terminal = true → c.status.terminal = true ∨
        ∀ r', h'.entry c.idempotencyKey = some r' → r'.finalStatus.isSome = true))
    (hApply : ∀ key ∈ h'.byApply, key ∈ h.byApply ∨ ∃ r, h'.entry key = some r ∧ r.finalStatus.isSome = true) :
    JournalInvariant h' where
  guards id c' hGet' hKey := by
    obtain ⟨c, hGet, hSame, hClosed⟩ := hCommands id c' hGet'
    rw [hSame.key] at hKey ⊢
    obtain ⟨r, hEntry, hId, hPayload, hTerminal⟩ := hInv.guards id c hGet hKey
    obtain ⟨r', hEntry', hFollows⟩ := hRecords _ r hEntry
    refine ⟨r', hEntry', hFollows.requestId.trans hId, ?_, fun hTerminal' => ?_⟩
    · rw [hFollows.payloadHash, hPayload, hSame.payload]
    obtain hBefore | hSettled := hClosed hTerminal'
    · rw [hFollows.kept (hTerminal hBefore)]
      exact hTerminal hBefore
    · exact hSettled r' hEntry'
  named key r' c' hEntry' hGet' := by
    obtain ⟨r, hEntry, hFollows⟩ := hOld key r' hEntry'
    rw [hFollows.requestId] at hGet'
    obtain ⟨c, hGet, hSame, -⟩ := hCommands _ c' hGet'
    rw [hSame.key]
    exact hInv.named key r c hEntry hGet
  keyed key r' hEntry' := by
    obtain ⟨r, hEntry, -⟩ := hOld key r' hEntry'
    exact hInv.keyed key r hEntry
  settled key hMem := by
    obtain hMem | hSettled := hApply key hMem
    · obtain ⟨r, hEntry, hSettled⟩ := hInv.settled key hMem
      obtain ⟨r', hEntry', hFollows⟩ := hRecords key r hEntry
      exact ⟨r', hEntry', by rw [hFollows.kept hSettled]; exact hSettled⟩
    · exact hSettled

theorem commands (hInv : JournalInvariant h) (hEntry : ∀ key, h'.entry key = h.entry key)
    (hApply : h'.byApply = h.byApply)
    (hCommands : ∀ id c', h'.command id = some c' → ∃ c, h.command id = some c ∧ c.SameRequest c' ∧
      (c'.status.terminal = true → c.status.terminal = true)) : JournalInvariant h' := by
  refine hInv.advance (fun key r hGet => ⟨r, (hEntry key).trans hGet, .refl r⟩)
    (fun key r hGet => ⟨r, (hEntry key).symm.trans hGet, .refl r⟩) ?_ (fun key hMem => .inl (hApply ▸ hMem))
  intro id c' hGet'
  obtain ⟨c, hGet, hSame, hTerminal⟩ := hCommands id c' hGet'
  exact ⟨c, hGet, hSame, fun h => .inl (hTerminal h)⟩

theorem insert (hInv : JournalInvariant h) {now : Nat} {req : EnqueueRequest}
    (hNew : CommandOp.NewRequest h (.enqueue now req))
    (hCommands : ∀ id, h'.command id =
      if id = req.requestId then some ((h.command req.requestId).getD (req.command now)) else h.command id)
    (hApply : h'.byApply = h.byApply)
    (hEntry : (req.idempotencyKey.isEmpty = true ∧ ∀ key, h'.entry key = h.entry key) ∨
      req.idempotencyKey.isEmpty = false ∧ h.entry req.idempotencyKey = none ∧ ∀ key, h'.entry key =
        if key = req.idempotencyKey then some ⟨req.requestId, (req.command now).payloadHash, none, .plain "", now, 0⟩
        else h.entry key) : JournalInvariant h' := by
  obtain ⟨hVacant, hUnnamed⟩ := hNew
  rw [hVacant, getD_none] at hCommands
  have hCases {id : String} {c : PendingCommand} (hGet : h'.command id = some c) :
      (id = req.requestId ∧ c = req.command now) ∨ id ≠ req.requestId ∧ h.command id = some c := by
    rw [hCommands] at hGet
    split at hGet
    · next hId => exact .inl ⟨hId, (some.inj hGet).symm⟩
    · next hId => exact .inr ⟨hId, hGet⟩
  have hMore {key : String} {r : IdempotencyRecord} (hGet : h.entry key = some r) : h'.entry key = some r := by
    obtain ⟨-, hSame⟩ | ⟨-, hNone, hAdd⟩ := hEntry
    · exact (hSame key).trans hGet
    · rw [hAdd, if_neg (fun hEq => by rw [hEq, hNone] at hGet; cases hGet), hGet]
  constructor
  · intro id c hGet hKey
    obtain ⟨rfl, rfl⟩ | ⟨-, hGet⟩ := hCases hGet
    · obtain ⟨hEmpty, -⟩ | ⟨-, -, hAdd⟩ := hEntry
      · have hKey : req.idempotencyKey.isEmpty = false := hKey
        rw [hEmpty] at hKey
        cases hKey
      · exact ⟨_, (hAdd _).trans (if_pos rfl), rfl, rfl, nofun⟩
    · obtain ⟨r, hGet', hRest⟩ := hInv.guards id c hGet hKey
      exact ⟨r, hMore hGet', hRest⟩
  · intro key r c hGet hCommand
    have hOld (hGet : h.entry key = some r) : c.idempotencyKey = key := by
      obtain ⟨hId, -⟩ | ⟨-, hCommand⟩ := hCases hCommand
      · exact absurd hId (hUnnamed key r hGet)
      · exact hInv.named key r c hGet hCommand
    obtain ⟨-, hSame⟩ | ⟨-, -, hAdd⟩ := hEntry
    · exact hOld ((hSame key).symm.trans hGet)
    rw [hAdd] at hGet
    split at hGet
    · next hKey =>
      cases hGet
      obtain ⟨-, rfl⟩ | ⟨hId, -⟩ := hCases hCommand
      · exact hKey.symm
      · exact absurd rfl hId
    · exact hOld hGet
  · intro key r hGet
    obtain ⟨-, hSame⟩ | ⟨hKey, -, hAdd⟩ := hEntry
    · exact hInv.keyed key r ((hSame key).symm.trans hGet)
    rw [hAdd] at hGet
    split at hGet
    · next hEq => exact hEq ▸ hKey
    · exact hInv.keyed key r hGet
  · intro key hMem
    obtain ⟨r, hGet, hSettled⟩ := hInv.settled key (hApply ▸ hMem)
    exact ⟨r, hMore hGet, hSettled⟩

theorem finish (hInv : JournalInvariant h) {id : String} {c : PendingCommand} {status : CommandStatus}
    {result : ResultText} {now : Nat} (hGet : h.command id = some c)
    (hBackend : h'.backend = h.backend.finishCommand id c status result now) (hApply : h'.byApply = h.byApply) :
    JournalInvariant h' := by
  have hEntry (key : String) : h'.entry key = if key = c.idempotencyKey ∧ c.idempotencyKey.isEmpty = false then
        (h.entry key).map (.finish status result now)
      else h.entry key := by
    rw [entry, hBackend, finishCommand_entry]
    rfl
  refine hInv.advance (fun key r hGet => ?_) (fun key r' hGet' => ?_) (fun id' c' hGet' => ?_)
    (fun key hMem => .inl (hApply ▸ hMem))
  · rw [entry, hBackend]
    exact follows_finishCommand hGet
  · rw [hEntry] at hGet'
    split at hGet'
    · obtain ⟨r, hGet, rfl⟩ := map_eq_some_iff.mp hGet'
      exact ⟨r, hGet, r.follows_finish status result now⟩
    · exact ⟨r', hGet', .refl r'⟩
  · rw [command, hBackend, finishCommand_command] at hGet'
    split at hGet'
    · next hId =>
      cases hGet'
      refine ⟨c, hId ▸ hGet, ⟨rfl, rfl, rfl⟩, fun _ => .inr fun r' hGet' => ?_⟩
      rw [hEntry] at hGet'
      split at hGet'
      · obtain ⟨r, -, rfl⟩ := map_eq_some_iff.mp hGet'
        exact r.settled_finish status result now
      · next hKey => exact absurd ⟨rfl, hInv.keyed _ _ hGet'⟩ hKey
    · exact ⟨c', hGet', ⟨rfl, rfl, rfl⟩, fun hTerminal => .inl hTerminal⟩

theorem effect (hNew : op.NewRequest h₀) (hInv : JournalInvariant h) (hEffect : LogEffect op h₀ h h') :
    JournalInvariant h' := by
  have hSame {b : ManagementBackend} (hCommands : ∀ id, b.commands.get id = h.command id) (id : String)
      (c : PendingCommand) (hGet : b.commands.get id = some c) : ∃ c', h.command id = some c' ∧
        c'.SameRequest c ∧ (c.status.terminal = true → c'.status.terminal = true) :=
    ⟨c, (hCommands id).symm.trans hGet, ⟨rfl, rfl, rfl⟩, fun hTerminal => hTerminal⟩
  cases hEffect with
  | quiet hCommands hJournal => exact hInv.commands hJournal rfl (hSame hCommands)
  | plain hOp hStart hKey hCommands hJournal =>
    subst hOp hStart
    exact hInv.insert hNew hCommands rfl (.inl ⟨hKey, hJournal⟩)
  | keyed hOp hStart hKey hVacant hCommands hJournal =>
    subst hOp hStart
    exact hInv.insert hNew hCommands rfl (.inr ⟨hKey, hVacant, hJournal⟩)
  | @claim req id c n hOp hStart hGet hClaimable hAttempts hToken =>
    refine hInv.commands (fun _ => rfl) rfl fun id' c' hGet' => ?_
    obtain ⟨rfl, rfl⟩ | hOld := HashMap.get_insert_cases hGet'
    · exact ⟨c, hGet, ⟨rfl, rfl, rfl⟩, nofun⟩
    · exact ⟨c', hOld, ⟨rfl, rfl, rfl⟩, fun hTerminal => hTerminal⟩
  | deadLetter hOp hStart hGet | complete hOp hStart hGet | finalize hOp hStart hGet => exact hInv.finish hGet rfl rfl
  | @journal b key r status result at' hOutcome hGet hOpen hCommands hJournal =>
    refine hInv.advance (fun key' r' hGet' => ?_) (fun key' r' hGet' => ?_) (fun id c hCommand => ?_) ?_
    · have hEffect : LogEffect op h₀ h _ := .journal hOutcome hGet hOpen hCommands hJournal
      exact hEffect.entry_follows hGet'
    · rw [entry, hJournal] at hGet'
      split at hGet'
      · next hKey =>
        cases hGet'
        exact ⟨r, hKey ▸ hGet, r.follows_finish status result at'⟩
      · exact ⟨r', hGet', .refl r'⟩
    · obtain ⟨c', hGet', hRequest, hTerminal⟩ := hSame hCommands id c hCommand
      exact ⟨c', hGet', hRequest, fun h => .inl (hTerminal h)⟩
    · intro key' hMem
      obtain rfl | hMem := List.mem_cons.mp hMem
      · exact .inr ⟨_, (hJournal _).trans (if_pos rfl), r.settled_finish status result at'⟩
      · exact .inl hMem

theorem effects (hNew : op.NewRequest h₀) (hInv : JournalInvariant h) (hEffects : LogEffects op h₀ h h') :
    JournalInvariant h' := by
  induction hEffects with
  | refl => exact hInv
  | tail _ hEffect ih => exact ih.effect hNew hEffect

theorem run {ok : LogHistory → CommandOp → Prop} (hOk : ∀ h op, ok h op → op.KeepsLog h ∧ op.NewRequest h)
    {ops : List CommandOp} (hRun : Trace.Allowed CommandOp.apply ok .new ops) :
    JournalInvariant (Trace.run CommandOp.apply .new ops) := by
  refine hRun.invariant JournalInvariant (fun h op hInv hAllowed => ?_) .new
  obtain ⟨hKeep, hNew⟩ := hOk h op hAllowed
  exact hInv.effects hNew (CommandOp.effects hKeep.1 hKeep.2)

theorem writeOnce (hInv : JournalInvariant h) : WriteOnce h where
  kept _ hRun _ _ hGet hSettled := entry_kept_run hRun hGet hSettled
  same key r status at' hGet hSettled := by
    have hGet' : h.backend.commandIdempotency.get key = some r := hGet
    rw [recordCommandOutcome, hInv.keyed key r hGet, hGet']
    simp [hSettled]
  different key r status result at' hGet hSettled hNe := by
    have hGet' : h.backend.commandIdempotency.get key = some r := hGet
    rw [recordCommandOutcome, hInv.keyed key r hGet, hGet']
    simp [hSettled, hNe.symm]

end JournalInvariant

/-! ## Agreement -/

section Agreement

variable {op : CommandOp} {h₀ h h' : LogHistory}

variable {id : String} {c : PendingCommand}

theorem LogEffect.closes (hKeep : op.CallersKeep h₀) (hEffect : LogEffect op h₀ h h')
    (hGet : h'.command id = some c) (hTerminal : c.status.terminal = true) :
    h.command id = some c ∨ (op.isApply = false ∧
      ∃ c₀, h₀.command id = some c₀ ∧ h.command id = some c₀ ∧ op.ends id c₀ = some c.result) := by
  obtain ⟨hChange, hTouched⟩ := hEffect.change hKeep id
  rw [hGet] at hChange hTouched
  generalize h.command id = before at hChange hTouched ⊢
  cases hChange with
  | same => exact .inl rfl
  | new | claim => cases hTerminal
  | finish hOpen hStatus hEnds =>
    obtain hSame | hStart := hTouched
    · exact absurd (some.inj hSame) (PendingCommand.finish_ne hOpen hStatus)
    have hApply : op.isApply = false := by cases op <;> first | rfl | cases hEnds
    exact .inr ⟨hApply, _, hStart.symm, rfl, hEnds⟩

theorem repeats_result (hRepeats : op.repeatsJournal h = true)
    {result : ResultText} {r : IdempotencyRecord} (hGet : h.command id = some c)
    (hEnds : op.ends id c = some result) (hMem : c.idempotencyKey ∈ h.byApply)
    (hEntry : h.entry c.idempotencyKey = some r) : r.result = result := by
  rw [CommandOp.repeatsJournal, List.all_eq_true] at hRepeats
  have hAt := hRepeats (id, c) (HashMap.mem_entries_iff.mpr hGet)
  rw [hEnds, all_some, hEntry, all_some, List.contains_iff_mem.mpr hMem] at hAt
  exact of_decide_eq_true hAt

theorem LogEffect.byApply_eq (hEffect : LogEffect op h₀ h h') (hApply : op.isApply = false) :
    h'.byApply = h.byApply := by
  cases hEffect with
  | journal hOutcome => cases op <;> first | (cases hOutcome; done) | cases hApply
  | _ => rfl

theorem LogEffects.byApply_eq (hEffects : LogEffects op h₀ h h') (hApply : op.isApply = false) :
    h'.byApply = h.byApply := by
  induction hEffects with
  | refl => rfl
  | tail _ hEffect ih => exact (hEffect.byApply_eq hApply).trans ih

theorem LogEffect.byApply_cases (hInv : JournalInvariant h) (hEffect : LogEffect op h₀ h h') {key : String}
    (hMem : key ∈ h'.byApply) : key ∈ h.byApply ∨
      ∀ r c, h'.entry key = some r → h'.command r.requestId = some c → c.status.terminal = false := by
  cases hEffect with
  | @journal b key' r' status result at' hOp hGet hOpen hCommands hJournal =>
    obtain rfl | hMem := List.mem_cons.mp hMem
    · right
      intro r c hEntry hCommand
      rw [entry, hJournal, if_pos rfl] at hEntry
      cases hEntry
      rw [command, hCommands, (r'.follows_finish status result at').requestId] at hCommand
      have hKey := hInv.named key r' c hGet hCommand
      obtain ⟨r'', hEntry, -, -, hSettled⟩ := hInv.guards _ c hCommand (hKey ▸ hInv.keyed key r' hGet)
      rw [hKey, hGet] at hEntry
      cases hEntry
      rw [hOpen] at hSettled
      exact Bool.eq_false_iff.mpr fun hTerminal => by cases hSettled hTerminal
    · exact .inl hMem
  | _ => exact .inl hMem

theorem JournalAgrees.effect (hKeep : op.CallersKeep h₀) (hRepeats : op.repeatsJournal h₀ = true) (hNew : op.NewRequest h₀)
    (hStart : JournalInvariant h₀) (hBefore : LogEffects op h₀ h₀ h) (hEffect : LogEffect op h₀ h h')
    (hAgrees : JournalAgrees h) : JournalAgrees h' := by
  have hInv := hStart.effects hNew hBefore
  intro key hMem r c hEntry hCommand hTerminal
  obtain hMem | hOpen := hEffect.byApply_cases hInv hMem
  · obtain ⟨r₁, hEntry₁, hSettled₁⟩ := hInv.settled key hMem
    obtain ⟨r₂, hEntry₂, hFollows⟩ := hEffect.entry_follows hEntry₁
    obtain rfl : r = r₁ := by
      rw [hEntry₂] at hEntry
      exact (some.inj hEntry).symm.trans (hFollows.kept hSettled₁)
    obtain hOld | ⟨hApply, c₀, hStart₀, hGet₀, hEnds⟩ := hEffect.closes hKeep hCommand hTerminal
    · exact hAgrees key hMem r c hEntry₁ hOld hTerminal
    have hMem₀ : key ∈ h₀.byApply := LogEffects.byApply_eq hBefore hApply ▸ hMem
    obtain ⟨r₀, hEntry₀, hSettled₀⟩ := hStart.settled key hMem₀
    have hKept := LogEffects.entry_kept hBefore hEntry₀ hSettled₀
    rw [hEntry₁] at hKept
    cases hKept
    have hKey := hInv.named key r c₀ hEntry₁ hGet₀
    exact (repeats_result hRepeats hStart₀ hEnds (hKey ▸ hMem₀) (hKey ▸ hEntry₀)).symm
  · rw [hOpen r c hEntry hCommand] at hTerminal
    cases hTerminal

theorem JournalAgrees.effects (hKeep : op.CallersKeep h) (hRepeats : op.repeatsJournal h = true) (hNew : op.NewRequest h)
    (hStart : JournalInvariant h) (hEffects : LogEffects op h h h') (hAgrees : JournalAgrees h) :
    JournalAgrees h' := by
  induction hEffects with
  | refl => exact hAgrees
  | tail hBefore hEffect ih => exact ih.effect hKeep hRepeats hNew hStart hBefore hEffect

end Agreement

/-- In every run whose closing operations repeat what an apply has written. -/
theorem journal_agrees {ops : List CommandOp}
    (hRun : Trace.Allowed CommandOp.apply (fun h op => op.KeepsLog h ∧ op.NewRequest h) .new ops) :
    WriteOnce (Trace.run CommandOp.apply .new ops) ∧
      (Trace.Allowed CommandOp.apply (fun h op => op.repeatsJournal h = true) .new ops →
        JournalAgrees (Trace.run CommandOp.apply .new ops)) := by
  refine ⟨(JournalInvariant.run (fun _ _ h => h) hRun).writeOnce, fun hRepeats => ?_⟩
  have hBoth := (hRun.and hRepeats).invariant (fun h => JournalInvariant h ∧ JournalAgrees h) ?_ ⟨.new, nofun⟩
  · exact hBoth.2
  intro h op hInv hOk
  have hEffects := CommandOp.effects hOk.1.1.1 hOk.1.1.2
  exact ⟨hInv.1.effects hOk.1.2 hEffects, hInv.2.effects hOk.1.1.2 hOk.2 hOk.1.2 hInv.1 hEffects⟩

namespace LostCompletion
open OneCommand

def snapshot (version : Nat) : RuntimeConfigSnapshot := ⟨1, version, 10, 4, 1000 + version⟩

def result : ResultText := .updateConfig ⟨"r1", 0, 1, true, snapshot 1, .applied, "", false⟩

def applied : AppliedOperation := ⟨"r1", "update_config", "key-1", (request.command 0).payloadHash, 1, result, 3⟩

def confirmed : List CommandOp :=
  [.enqueue 0 request, .casRuntime 0 "node-a" 0 "boot-1" (snapshot 0),
    .confirmRuntime 0 "node-a" 0 "boot-1" (snapshot 0) .observed "" none, .claim (claim 1 (token 'a')),
    .casRuntime 2 "node-a" 0 "boot-1" (snapshot 1),
    .confirmRuntime 3 "node-a" 1 "boot-1" (snapshot 1) .observed "" (some applied)]

def reclaimed : List CommandOp :=
  [.claim (claim 100 (token 'b')), .claim (claim 200 (token 'c')), .claim (claim 300 (token 'd')),
    .claim (claim 400 (token 'e')), .claim (claim 500 (token 'f'))]

theorem confirmed_allowed :
    Trace.Allowed CommandOp.apply (fun h op => op.KeepsLog h ∧ op.NewRequest h) .new confirmed :=
  ⟨⟨⟨rfl, trivial⟩, rfl, (fun _ _ h => nomatch h)⟩, ⟨⟨rfl, trivial⟩, trivial⟩, ⟨⟨rfl, trivial⟩, trivial⟩,
    ⟨claim_keeps 'a' (by decide +kernel), trivial⟩, ⟨⟨rfl, trivial⟩, trivial⟩, ⟨⟨rfl, trivial⟩, trivial⟩, trivial⟩

theorem reclaimed_allowed : Trace.Allowed CommandOp.apply (fun h op => op.KeepsLog h ∧ op.NewRequest h)
      (Trace.run CommandOp.apply .new confirmed) reclaimed :=
  ⟨⟨claim_keeps 'b' (by decide +kernel), trivial⟩, ⟨claim_keeps 'c' (by decide +kernel), trivial⟩,
    ⟨claim_keeps 'd' (by decide +kernel), trivial⟩, ⟨claim_keeps 'e' (by decide +kernel), trivial⟩,
    ⟨claim_keeps 'f' (by decide +kernel), trivial⟩, trivial⟩

def completed : List CommandOp := confirmed ++ [.complete 4 "r1" "node-a" "a0" .done result]

theorem completed_allowed :
    Trace.Allowed CommandOp.apply (fun h op => op.KeepsLog h ∧ op.NewRequest h) .new completed :=
  confirmed_allowed.append ⟨⟨⟨rfl, rfl⟩, trivial⟩, trivial⟩

theorem completed_repeats : Trace.Allowed CommandOp.apply (fun h op => op.repeatsJournal h = true) .new completed :=
  ⟨by decide +kernel, by decide +kernel, by decide +kernel, by decide +kernel, by decide +kernel,
    by decide +kernel, by decide +kernel, trivial⟩

end LostCompletion

/-- The applied change is journaled, the command that carried it reports a dead letter. -/
theorem dead_letter_differs : Trace.Allowed CommandOp.apply (fun h op => op.KeepsLog h ∧ op.NewRequest h) .new
        (LostCompletion.confirmed ++ LostCompletion.reclaimed) ∧
      ¬ JournalAgrees (Trace.run CommandOp.apply .new (LostCompletion.confirmed ++ LostCompletion.reclaimed)) := by
  refine ⟨LostCompletion.confirmed_allowed.append LostCompletion.reclaimed_allowed, fun hAgrees => ?_⟩
  have hSeen : (fun h : LogHistory => h.byApply.contains "key-1" && (h.entry "key-1").any fun r =>
      (h.backend.getCommand r.requestId).any fun c => c.status.terminal && decide (c.result ≠ r.result))
      (Trace.run CommandOp.apply .new (LostCompletion.confirmed ++ LostCompletion.reclaimed)) = true := by
    decide +kernel
  rw [Bool.and_eq_true, any_eq_true_iff_get, List.contains_iff_mem] at hSeen
  obtain ⟨hMem, hEntry, hSeen⟩ := hSeen
  rw [any_eq_true_iff_get] at hSeen
  obtain ⟨hCommand, hSeen⟩ := hSeen
  rw [Bool.and_eq_true] at hSeen
  exact of_decide_eq_true hSeen.2 (hAgrees "key-1" hMem _ _ (some_get hEntry).symm (some_get hCommand).symm hSeen.1)

theorem journal_agrees_completed :
    ((Trace.run CommandOp.apply .new LostCompletion.completed).command "r1").map PendingCommand.status = some .done ∧
      WriteOnce (Trace.run CommandOp.apply .new LostCompletion.completed) ∧
      JournalAgrees (Trace.run CommandOp.apply .new LostCompletion.completed) := by
  have hAgrees := journal_agrees LostCompletion.completed_allowed
  exact ⟨by decide +kernel, hAgrees.1, hAgrees.2 LostCompletion.completed_repeats⟩

/-! ## Retention of the command log -/

open HashMap List

namespace CommandLogRetention

variable (r : CommandLogRetention)

def KeepsRecords : Prop := ∀ status ttl, r.ttl status = some ttl → ttl ≤ r.idempotencyMs

def closedInTime (c : PendingCommand) (rec : IdempotencyRecord) : Bool :=
  (r.ttl c.status).any fun ttl => decide (c.updatedAtMs ≤ rec.completedAtMs + (r.idempotencyMs - ttl))

end CommandLogRetention

def CommandOp.KeepsRecords : CommandOp → Prop
  | .gc r _ _ => r.KeepsRecords
  | _ => True

/-- A pass meets no record past its retention whose command is open or closed late. -/
def CommandOp.closedInTime (h : LogHistory) : CommandOp → Bool
  | .gc r _ now => h.backend.commandIdempotency.entries.all fun e =>
    !r.recordDue now e.2 || (h.command e.2.requestId).all fun c => r.closedInTime c e.2
  | _ => true

structure GcBounded (h : LogHistory) (r : CommandLogRetention) (order : IterOrder) (now : Nat) : Prop where
  kept : ∀ id c, h.command id = some c → c.status = .pending ∨ c.status = .inProgress →
    (CommandOp.apply h (.gc r order now)).command id = some c
  budget : h.backend.commands.len + h.backend.commandIdempotency.len ≤
    (CommandOp.apply h (.gc r order now)).backend.commands.len +
      (CommandOp.apply h (.gc r order now)).backend.commandIdempotency.len + max (r.batch * r.maxBatches) 1

def RecordsOutlive (h : LogHistory) (r : CommandLogRetention) (order : IterOrder) (now : Nat) : Prop :=
  ∀ key rec, h.entry key = some rec → (CommandOp.apply h (.gc r order now)).entry key = none →
    (CommandOp.apply h (.gc r order now)).command rec.requestId = none

/-- A request that is sent again is answered with the command in the log. -/
def ResendsOnce (h : LogHistory) : Prop :=
  ∀ id c now (req : EnqueueRequest), h.command id = some c → c.idempotencyKey.isEmpty = false →
    req.idempotencyKey = c.idempotencyKey → (req.command now).payloadHash = c.payloadHash →
    h.backend.enqueueCommand now (req.command now) = (.ok id, h.backend)

/-! ## Selection within a budget -/

theorem foldl_select {α β : Type} (p : α → Bool) (f : α → β) (n : Nat) (l : List α) (selected : List β) :
    l.foldl (fun selected a => if p a ∧ selected.length < n then selected ++ [f a] else selected) selected =
      selected ++ ((l.filter p).map f).take (n - selected.length) := by
  induction l generalizing selected with
  | nil => simp
  | cons a l ih =>
    rw [foldl_cons, ih]
    by_cases hSelect : p a ∧ selected.length < n
    · obtain ⟨k, hk⟩ : ∃ k, n - selected.length = k + 1 := ⟨n - selected.length - 1, by omega⟩
      have hLess : n - (selected ++ [f a]).length = k := by
        rw [length_append, length_singleton]
        omega
      rw [if_pos hSelect, hLess, hk, filter_cons_of_pos hSelect.1, map_cons, take_succ_cons, append_assoc]
      rfl
    · rw [if_neg hSelect]
      by_cases hp : p a
      · have hFull : n - selected.length = 0 := by
          rw [not_and] at hSelect
          have := hSelect hp
          omega
        rw [hFull, take_zero, take_zero]
      · rw [filter_cons_of_neg hp]

section Pass

variable {b : ManagementBackend} {r : CommandLogRetention} {order : IterOrder} {now : Nat}

theorem toRemove_visit (scan : GcScan) (c : PendingCommand) : (scan.visit r now c).toRemove =
      if r.commandDue now c ∧ scan.toRemove.length < r.cap then scan.toRemove ++ [c.requestId]
      else scan.toRemove := by
  unfold GcScan.visit commandDue
  cases r.ttl c.status with
  | none => rw [if_neg (fun h => by cases h.1)]
  | some ttl => simp

theorem gcScan_toRemove : (b.gcScan r order now).toRemove =
    ((((order.visit b.commands.entries).map Prod.snd).filter (r.commandDue now)).map
      PendingCommand.requestId).take r.cap := by
  have hSelect := foldl_select (r.commandDue now) PendingCommand.requestId r.cap
    ((order.visit b.commands.entries).map Prod.snd) []
  rw [nil_append, length_nil, Nat.sub_zero] at hSelect
  rw [gcScan, ← hSelect, ← @List.foldl_hom _ _ _ GcScan.toRemove (GcScan.visit r now)]
  exact fun scan c => (toRemove_visit scan c).symm

theorem gcRecords_eq {spent : Nat} : b.gcRecords r order now spent =
    (((order.visit b.commandIdempotency.entries).filter fun e => r.recordDue now e.2).map Prod.fst).take
      (r.cap - spent) := by
  have hSelect := foldl_select (fun e : String × IdempotencyRecord => r.recordDue now e.2) Prod.fst
    (r.cap - spent) (order.visit b.commandIdempotency.entries) []
  rw [nil_append, length_nil, Nat.sub_zero] at hSelect
  rw [gcRecords, ← hSelect]
  congr 1
  funext selected e
  rw [selectRecord]
  congr 1
  rw [Nat.lt_sub_iff_add_lt']

theorem due_of_mem_toRemove {id : String} (hMem : id ∈ (b.gcScan r order now).toRemove) :
    ∃ key c, b.commands.get key = some c ∧ r.commandDue now c = true ∧ c.requestId = id := by
  rw [gcScan_toRemove] at hMem
  obtain ⟨c, hDue, rfl⟩ := mem_map.mp (mem_of_mem_take hMem)
  obtain ⟨hVisit, hDue⟩ := mem_filter.mp hDue
  obtain ⟨⟨key, c⟩, hEntry, rfl⟩ := mem_map.mp hVisit
  exact ⟨key, c, (mem_visit_iff order).mp hEntry, hDue, rfl⟩

theorem mem_toRemove_of_due (hBudget : (b.gcScan r order now).toRemove.length < r.cap) {key : String}
    {c : PendingCommand} (hGet : b.commands.get key = some c) (hDue : r.commandDue now c = true) :
    c.requestId ∈ (b.gcScan r order now).toRemove := by
  rw [gcScan_toRemove, length_take] at hBudget
  rw [gcScan_toRemove, take_of_length_le (by omega)]
  refine mem_map_of_mem (mem_filter.mpr ⟨?_, hDue⟩)
  exact mem_map.mpr ⟨(key, c), (mem_visit_iff order).mpr hGet, rfl⟩

theorem due_of_mem_gcRecords {spent : Nat} {key : String} (hMem : key ∈ b.gcRecords r order now spent) :
    spent < r.cap ∧ ∃ rec, b.commandIdempotency.get key = some rec ∧ r.recordDue now rec = true := by
  rw [gcRecords_eq] at hMem
  constructor
  · by_contra hSpent
    rw [Nat.sub_eq_zero_of_le (Nat.le_of_not_lt hSpent), take_zero] at hMem
    cases hMem
  obtain ⟨⟨key', rec⟩, hDue, rfl⟩ := mem_map.mp (mem_of_mem_take hMem)
  obtain ⟨hVisit, hDue⟩ := mem_filter.mp hDue
  exact ⟨rec, (mem_visit_iff order).mp hVisit, hDue⟩

theorem gc_selected_le : (b.gcScan r order now).toRemove.length +
    (b.gcRecords r order now (b.gcScan r order now).toRemove.length).length ≤ r.cap := by
  have hScan : (b.gcScan r order now).toRemove.length ≤ r.cap := by
    rw [gcScan_toRemove]
    exact length_take_le _ _
  have hRecords : (b.gcRecords r order now (b.gcScan r order now).toRemove.length).length ≤
      r.cap - (b.gcScan r order now).toRemove.length := by
    rw [gcRecords_eq]
    exact length_take_le _ _
  omega

end Pass

theorem CommandLogRetention.cap_le (r : CommandLogRetention) : r.cap ≤ max (r.batch * r.maxBatches) 1 := by
  have hSaturating : saturatingMul 64 r.batch r.maxBatches ≤ r.batch * r.maxBatches := Nat.min_le_left _ _
  rw [cap]
  omega

section Gc

variable {h : LogHistory} {r : CommandLogRetention} {order : IterOrder} {now : Nat}

theorem gc_command (id : String) : (CommandOp.apply h (.gc r order now)).command id =
    if id ∈ (h.backend.gcScan r order now).toRemove then none else h.command id :=
  get_foldl_remove ..

theorem gc_entry (key : String) : (CommandOp.apply h (.gc r order now)).entry key =
    if key ∈ h.backend.gcRecords r order now (h.backend.gcScan r order now).toRemove.length then none
    else h.entry key :=
  get_foldl_remove ..

theorem gc_command_old {id : String} {c : PendingCommand}
    (hGet : (CommandOp.apply h (.gc r order now)).command id = some c) : h.command id = some c := by
  rw [gc_command] at hGet
  split at hGet
  · cases hGet
  · exact hGet

theorem gc_entry_old {key : String} {rec : IdempotencyRecord}
    (hGet : (CommandOp.apply h (.gc r order now)).entry key = some rec) : h.entry key = some rec := by
  rw [gc_entry] at hGet
  split at hGet
  · cases hGet
  · exact hGet

theorem commandDue_of_closedInTime (hKeeps : r.KeepsRecords) {c : PendingCommand} {rec : IdempotencyRecord}
    (hRecord : r.recordDue now rec = true) (hClosed : r.closedInTime c rec = true) : r.commandDue now c = true := by
  unfold closedInTime at hClosed
  unfold commandDue
  cases hTtl : r.ttl c.status with
  | none =>
    rw [hTtl] at hClosed
    cases hClosed
  | some ttl =>
    have hLonger := hKeeps c.status ttl hTtl
    rw [hTtl] at hClosed
    have hClosed := of_decide_eq_true hClosed
    rw [recordDue, Bool.and_eq_true] at hRecord
    have hAge := of_decide_eq_true hRecord.2
    exact decide_eq_true (by omega)

end Gc

/-! ## Runs with garbage collection -/

def Stored (h : LogHistory) : Prop := ∀ id c, h.command id = some c → c.requestId = id

section Run

variable {op : CommandOp} {h₀ h h' : LogHistory} {r : CommandLogRetention} {order : IterOrder} {now : Nat}

theorem Stored.new : Stored .new := fun _ _ h => nomatch h

theorem Stored.effects (hStored : Stored h) (hKeep : op.CallersKeep h₀) (hEffects : LogEffects op h₀ h h') :
    Stored h' := by
  induction hEffects with
  | refl => exact hStored
  | @tail h₁ _ _ hEffect ih =>
    intro id c' hGet
    obtain ⟨hChange, -⟩ := hEffect.change hKeep id
    rw [hGet] at hChange
    generalize hBefore : h₁.command id = before at hChange
    cases hChange with
    | same => exact ih id c' hBefore
    | new hOp hId => exact hId.symm
    | claim | finish =>
      have hOld := ih id _ hBefore
      exact hOld

theorem Stored.step (hStored : Stored h) (hKeep : op.CallersKeep h) : Stored (op.apply h) := by
  cases hGc : op.isGc with
  | false => exact hStored.effects hKeep (CommandOp.effects hGc hKeep)
  | true =>
    cases op with
    | gc r order now => exact fun id c hGet => hStored id c (gc_command_old hGet)
    | _ => cases hGc

theorem Stored.bounded (hStored : Stored h) : GcBounded h r order now where
  kept id c hGet hOpen := by
    rw [gc_command, if_neg, hGet]
    intro hMem
    obtain ⟨key, c', hGet', hDue, hId⟩ := due_of_mem_toRemove hMem
    obtain rfl : key = id := (hStored key c' hGet').symm.trans hId
    obtain rfl := Option.some.inj (hGet.symm.trans hGet')
    obtain hStatus | hStatus := hOpen
    all_goals
      rw [commandDue, hStatus] at hDue
      cases hDue
  budget := by
    have hCommands := len_le_foldl_remove (h.backend.gcScan r order now).toRemove h.backend.commands
    have hRecords := len_le_foldl_remove
      (h.backend.gcRecords r order now (h.backend.gcScan r order now).toRemove.length) h.backend.commandIdempotency
    have hSelected := @gc_selected_le h.backend r order now
    have hCap := r.cap_le
    simp only [CommandOp.apply, gcCommandLog]
    omega

theorem Stored.outlive (hStored : Stored h) (hKeeps : r.KeepsRecords)
    (hClosed : CommandOp.closedInTime h (.gc r order now) = true) : RecordsOutlive h r order now := by
  intro key rec hGet hGone
  rw [gc_entry] at hGone
  split at hGone
  · next hMem =>
    obtain ⟨hBudget, rec', hGet', hDue⟩ := due_of_mem_gcRecords hMem
    obtain rfl := Option.some.inj (hGet.symm.trans hGet')
    rw [CommandOp.closedInTime, List.all_eq_true] at hClosed
    have hAt := hClosed (key, rec) (mem_entries_iff.mpr hGet)
    rw [hDue, Bool.not_true, Bool.false_or] at hAt
    rw [gc_command]
    cases hCommand : h.command rec.requestId with
    | none => rw [ite_self]
    | some c =>
      rw [hCommand, Option.all_some] at hAt
      have hRemoved := mem_toRemove_of_due hBudget hCommand (commandDue_of_closedInTime hKeeps hDue hAt)
      rw [hStored _ c hCommand] at hRemoved
      rw [if_pos hRemoved]
  · rw [hGet] at hGone
    cases hGone

theorem JournalInvariant.gc (hInv : JournalInvariant h) (hOutlive : RecordsOutlive h r order now) :
    JournalInvariant (CommandOp.apply h (.gc r order now)) where
  guards id c hGet hKey := by
    obtain ⟨rec, hEntry, hId, hRest⟩ := hInv.guards id c (gc_command_old hGet) hKey
    refine ⟨rec, ?_, hId, hRest⟩
    cases hEntry' : (CommandOp.apply h (.gc r order now)).entry c.idempotencyKey with
    | none =>
      have hGone := hOutlive _ rec hEntry hEntry'
      rw [hId, hGet] at hGone
      cases hGone
    | some rec' =>
      rw [gc_entry_old hEntry'] at hEntry
      exact hEntry
  named key rec c hEntry hGet := hInv.named key rec c (gc_entry_old hEntry) (gc_command_old hGet)
  keyed key rec hEntry := hInv.keyed key rec (gc_entry_old hEntry)
  settled key hMem := by
    have hSettled := (mem_filter.mp hMem).2
    obtain ⟨hSome, hFinal⟩ := (Option.any_eq_true_iff_get _ _).mp hSettled
    exact ⟨_, (Option.some_get hSome).symm, hFinal⟩

theorem JournalInvariant.resends (hInv : JournalInvariant h) : ResendsOnce h := by
  intro id c now req hGet hKey hSameKey hSamePayload
  obtain ⟨rec, hEntry, hId, hPayload, -⟩ := hInv.guards id c hGet hKey
  have hSameKey : (req.command now).idempotencyKey = c.idempotencyKey := hSameKey
  have hEntry : h.backend.commandIdempotency.get c.idempotencyKey = some rec := hEntry
  rw [enqueueCommand, hSameKey, hKey, hEntry]
  simp [hPayload, hSamePayload, hId]

end Run

/-- In every run whose passes meet only commands that closed in time. -/
theorem records_outlive {ops : List CommandOp}
    (hRun : Trace.Allowed CommandOp.apply (fun h op => op.CallersKeep h ∧ op.NewRequest h ∧ op.KeepsRecords) .new
      ops) :
    (∀ r order now, GcBounded (Trace.run CommandOp.apply .new ops) r order now) ∧
      (Trace.Allowed CommandOp.apply (fun h op => op.closedInTime h = true) .new ops →
        ResendsOnce (Trace.run CommandOp.apply .new ops) ∧
          ∀ r order now, r.KeepsRecords →
            CommandOp.closedInTime (Trace.run CommandOp.apply .new ops) (.gc r order now) = true →
            RecordsOutlive (Trace.run CommandOp.apply .new ops) r order now) := by
  have hStored : Stored (Trace.run CommandOp.apply .new ops) :=
    hRun.invariant Stored (fun _ _ hStored hOk => hStored.step hOk.1) .new
  refine ⟨fun _ _ _ => hStored.bounded, fun hInTime => ⟨?_, fun _ _ _ hKeeps => hStored.outlive hKeeps⟩⟩
  have hBoth := (hRun.and hInTime).invariant (fun h => Stored h ∧ JournalInvariant h) ?_ ⟨.new, .new⟩
  · exact hBoth.2.resends
  intro h op hInv hOk
  refine ⟨hInv.1.step hOk.1.1, ?_⟩
  cases hGc : op.isGc with
  | false => exact hInv.2.effects hOk.1.2.1 (CommandOp.effects hGc hOk.1.1)
  | true =>
    cases op with
    | gc r order now => exact hInv.2.gc (hInv.1.outlive hOk.1.2.2 hOk.2)
    | _ => cases hGc

namespace Collected
open LostCompletion

def level : CommandLogRetention := ⟨1000, 1000, 1000, 1000, 1000, 10, 1⟩

def longer : CommandLogRetention := ⟨1000, 1000, 1000, 1000, 2000, 10, 1⟩

theorem level_keeps : level.KeepsRecords := by
  intro status ttl hTtl
  cases status <;> cases hTtl <;> decide

theorem longer_keeps : longer.KeepsRecords := by
  intro status ttl hTtl
  cases status <;> cases hTtl <;> decide

theorem allowed {ops : List CommandOp}
    (hRun : Trace.Allowed CommandOp.apply (fun h op => op.KeepsLog h ∧ op.NewRequest h) .new ops) :
    Trace.Allowed CommandOp.apply (fun h op => op.CallersKeep h ∧ op.NewRequest h ∧ op.KeepsRecords) .new ops := by
  refine hRun.mono fun h op hOk => ⟨hOk.1.2, hOk.2, ?_⟩
  cases op with
  | gc => cases hOk.1.1
  | _ => trivial

def early : List CommandOp := confirmed ++ [.gc level .stored 2000]

def again : EnqueueRequest := { OneCommand.request with requestId := "r2" }

def late : List CommandOp := completed ++ [.gc longer .stored 1500]

theorem early_allowed :
    Trace.Allowed CommandOp.apply (fun h op => op.CallersKeep h ∧ op.NewRequest h ∧ op.KeepsRecords) .new early :=
  (allowed confirmed_allowed).append ⟨⟨trivial, trivial, level_keeps⟩, trivial⟩

theorem late_allowed :
    Trace.Allowed CommandOp.apply (fun h op => op.CallersKeep h ∧ op.NewRequest h ∧ op.KeepsRecords) .new late :=
  (allowed completed_allowed).append ⟨⟨trivial, trivial, longer_keeps⟩, trivial⟩

theorem late_inTime : Trace.Allowed CommandOp.apply (fun h op => op.closedInTime h = true) .new late :=
  ⟨by decide +kernel, by decide +kernel, by decide +kernel, by decide +kernel, by decide +kernel,
    by decide +kernel, by decide +kernel, by decide +kernel, trivial⟩

end Collected

/-- The record goes while the command is in the log, and the request sent again creates a second command. -/
theorem record_collected_first :
    Trace.Allowed CommandOp.apply (fun h op => op.CallersKeep h ∧ op.NewRequest h ∧ op.KeepsRecords) .new
        Collected.early ∧
      ¬ RecordsOutlive (Trace.run CommandOp.apply .new LostCompletion.confirmed) Collected.level .stored 2000 ∧
      ¬ ResendsOnce (Trace.run CommandOp.apply .new Collected.early) := by
  refine ⟨Collected.early_allowed, fun hOutlive => ?_, fun hResends => ?_⟩
  · have hSeen : ((Trace.run CommandOp.apply .new LostCompletion.confirmed).entry "key-1").any (fun rec =>
        ((Trace.run CommandOp.apply .new Collected.early).entry "key-1").isNone &&
          ((Trace.run CommandOp.apply .new Collected.early).command rec.requestId).isSome) = true := by
      decide +kernel
    obtain ⟨hEntry, hSeen⟩ := (Option.any_eq_true_iff_get _ _).mp hSeen
    rw [Bool.and_eq_true, Option.isNone_iff_eq_none] at hSeen
    have hGone := hOutlive "key-1" _ (Option.some_get hEntry).symm hSeen.1
    exact Option.isSome_iff_ne_none.mp hSeen.2 hGone
  · have hSeen : ((Trace.run CommandOp.apply .new Collected.early).command "r1").any (fun c =>
        !c.idempotencyKey.isEmpty && decide (Collected.again.idempotencyKey = c.idempotencyKey) &&
          decide ((Collected.again.command 2001).payloadHash = c.payloadHash)) = true := by
      decide +kernel
    have hAnswer : ((Trace.run CommandOp.apply .new Collected.early).backend.enqueueCommand 2001
        (Collected.again.command 2001)).1.toOption = some "r2" := by
      decide +kernel
    obtain ⟨hCommand, hSeen⟩ := (Option.any_eq_true_iff_get _ _).mp hSeen
    rw [Bool.and_eq_true, Bool.and_eq_true, Bool.not_eq_true', decide_eq_true_eq, decide_eq_true_eq] at hSeen
    rw [hResends "r1" _ 2001 Collected.again (Option.some_get hCommand).symm hSeen.1.1 hSeen.1.2 hSeen.2] at hAnswer
    exact absurd (Option.some.inj hAnswer) (by decide)

theorem records_outlive_completed : ((Trace.run CommandOp.apply .new Collected.late).command "r1").isNone = true ∧
      ((Trace.run CommandOp.apply .new Collected.late).entry "key-1").isSome = true ∧
      GcBounded (Trace.run CommandOp.apply .new Collected.late) Collected.longer .stored 3000 ∧
      ResendsOnce (Trace.run CommandOp.apply .new Collected.late) ∧
      RecordsOutlive (Trace.run CommandOp.apply .new Collected.late) Collected.longer .stored 3000 := by
  have hOutlive := records_outlive Collected.late_allowed
  obtain ⟨hResends, hRecords⟩ := hOutlive.2 Collected.late_inTime
  exact ⟨by decide +kernel, by decide +kernel, hOutlive.1 _ _ _, hResends,
    hRecords _ _ _ Collected.longer_keeps (by decide +kernel)⟩

end Turna.StateBackend
