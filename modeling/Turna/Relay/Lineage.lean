import Turna.Relay.NodeRun

/-! # Where allocations come from

An allocation that is in the table after a step was there before it at the same address, was moved there by the step,
or came into the table with it.
-/

namespace Turna.Relay
open Lib Net Crypto Stun Auth Session Transport Processor List Scenario Option TableEvent

section

/-! ## Time -/

def NodeStep.Reads (now : Nat) : NodeStep → Prop
  | .process env _ _ => now = env.clock.now
  | .processTcpControl env _ _ => now = env.clock.now
  | .processSlice env _ _ => now = env.clock.now
  | .processRelayRecv env _ _ _ => now = env.clock.now
  | .releaseForClosedConnection env _ => now = env.clock.now
  | .migrateQuicAllocation env _ _ => now = env.clock.now
  | .cleanupExpired _ sweep _ => now = sweep.reservations ∨ ∃ c, now = sweep.classify c ∨ now = sweep.prune c ∨
      now = sweep.recheck c ∨ now = (sweep.remove c).now
  | .deleteAllocation env _ => now = env.clock.now
  | .removeUser env _ => now = env.clock.now
  | .bulkLoad _ rows => ∃ row ∈ rows, now = row.1.now
  | .adopt _ clock _ => now = clock.now
  | .publish _ _ => False
  | .usageSink _ => False

/-- Steps in the order of time, the first not before `t`. -/
inductive Timed : Nat → List NodeStep → Prop where
  | nil {t : Nat} : Timed t []
  | cons {t t' : Nat} {step : NodeStep} {steps : List NodeStep} (hWithin : ∀ now, step.Reads now → t ≤ now ∧ now ≤ t')
      (hLater : t ≤ t') (hRest : Timed t' steps) : Timed t (step :: steps)

variable {a : Allocation}

theorem isExpired_mono {t t' : Nat} (h : a.isExpired t = true) (hLater : t ≤ t') : a.isExpired t' = true := by
  simp only [Allocation.isExpired, decide_eq_true_eq] at h ⊢
  omega

theorem NodeStep.reads_packet {step : NodeStep} {env : Surroundings} {raw : Bytes} {src : SocketAddr}
    (h : step.packet? = some (env, raw, src)) : step.Reads env.clock.now := by
  cases step <;> first | (cases h; exact rfl) | cases h

/-! ## Requests that spare expired allocations -/

/-- No authenticated request acts on an expired allocation, and no redirect is in force for its address. -/
structure SparesPacket (p : Processor) (env : Surroundings) (raw : Bytes) (src : SocketAddr) : Prop where
  refresh : ∀ msg auth, Asked env raw src .refresh msg auth → ∀ c a, p.refreshTarget env msg src = some c →
    p.store.get c = some a → a.isExpired env.clock.now = false
  install : ∀ method msg auth, method = .createPermission ∨ method = .channelBind →
    Asked env raw src method msg auth → ∀ a, p.store.get src = some a → a.isExpired env.clock.now = false
  redirect : ∀ a, p.store.get src = some a → a.isExpired env.clock.now = true → env.redirect = none

def Spares (p : Processor) (step : NodeStep) : Prop :=
  (∀ env raw src, step.packet? = some (env, raw, src) → SparesPacket p env raw src) ∧
    ∀ env oldAddr newAddr, step = .migrateQuicAllocation env oldAddr newAddr →
      ∀ a, p.store.get oldAddr = some a → a.isExpired env.clock.now = false

section Untouched

variable {p p' : Processor} {es : List TableEvent} {actions : List Action} {c : SocketAddr} {a : Allocation}

theorem PacketOutcome.spares {env : Surroundings} {raw : Bytes} {src : SocketAddr}
    (h : PacketOutcome p env raw src es actions p') (hSpares : SparesPacket p env raw src)
    (hGet : p.store.get c = some a) (hExpired : a.isExpired env.clock.now = true) :
    ∀ e ∈ es, e.touches c = false := by
  have hDead {b : Allocation} {c' : SocketAddr} (hThere : p.store.get c' = some b)
      (hLive : b.isExpired env.clock.now = false) : c' ≠ c := by
    rintro rfl
    cases hGet.symm.trans hThere
    rw [hExpired] at hLive
    cases hLive
  have hVacantNe {c' : SocketAddr} (hVacant : p.store.get c' = none) : c' ≠ c := by
    rintro rfl
    rw [hGet] at hVacant
    cases hVacant
  cases h with
  | idle | closed => simp [touches]
  | relayed hThere hLive => simp [touches, hDead hThere hLive]
  | edited hAsked hMethod hThere _ hEdits =>
    have hNe : src ≠ c := by
      obtain rfl | hMethod := hMethod
      · exact hDead hThere (hSpares.refresh _ _ hAsked src _ (refreshTarget_some hThere) hThere)
      · exact hDead hThere (hSpares.install _ _ _ hMethod hAsked _ hThere)
    intro e he
    rw [hEdits e he]
    exact decide_eq_false hNe
  | moved hAsked hVacant hTarget hThere _ hRest =>
    have hOld := hDead hThere (hSpares.refresh _ _ hAsked _ _ hTarget hThere)
    obtain rfl | ⟨b, reason, rfl⟩ := hRest <;> simp [touches, hOld, hVacantNe hVacant]
  | created _ hVacant _ _ hRest =>
    obtain rfl | rfl := hRest <;> simp [touches, hVacantNe hVacant]

theorem PacketOutcome.shape {env : Surroundings} {raw : Bytes} {src : SocketAddr}
    (h : PacketOutcome p env raw src es actions p') : Shape es := by
  cases h with
  | idle | relayed | closed => exact .tended (by simp [fills])
  | edited _ _ _ _ hEdits => exact .tended (fun e he => hEdits e he ▸ rfl)
  | moved _ _ _ _ _ hRest =>
    refine .moved (fun e he => ?_)
    obtain rfl | ⟨b, reason, rfl⟩ := hRest
    · exact .inl (mem_singleton.mp he)
    · exact .inr ⟨_, _, _, mem_singleton.mp he⟩
  | created _ _ _ _ hRest =>
    obtain rfl | rfl := hRest <;> exact .opened (by simp [isClosed]) (by simp)

theorem StepOutcome.shape {step : NodeStep} (h : StepOutcome p step es actions p') : Shape es := by
  cases h with
  | packet _ h => exact h.shape
  | delivered | drained => exact .tended (by simp [fills])
  | tended _ _ hTended =>
    refine .tended (fun e he => ?_)
    obtain hClosed | rfl | ⟨c, rfl, -⟩ := hTended e he
    · cases e <;> first | rfl | cases hClosed
    · rfl
    · rfl
  | migrated => exact .moved (by simp)
  | loaded _ _ hLoaded =>
    refine .opened (fun e he => ?_) (fun e he c c' => ?_)
    · obtain rfl | ⟨row, -, s, rfl⟩ := hLoaded e he <;> rfl
    · obtain rfl | ⟨row, -, s, rfl⟩ := hLoaded e he <;> exact nofun
  | adopted => exact .opened (by simp [isClosed]) (by simp)

theorem expired_kept {step : NodeStep} {t : Nat} (hSpares : Spares p step) (hReads : ∀ now, step.Reads now → t ≤ now)
    (hGet : p.store.get c = some a) (hExpired : a.isExpired t = true) :
    (step.apply p).store.get c = some a ∨ (step.apply p).store.get c = none := by
  obtain ⟨es, hOutcome⟩ := step.outcome p
  rw [NodeStep.apply]
  generalize step.run p = r at hOutcome ⊢
  obtain ⟨actions, p'⟩ := r
  refine hOutcome.run.untouched hOutcome.shape hGet ?_
  have hDead {b : Allocation} {c' : SocketAddr} {now : Nat} (hNow : step.Reads now) (hThere : p.store.get c' = some b)
      (hLive : b.isExpired now = false) : c' ≠ c := by
    rintro rfl
    cases hGet.symm.trans hThere
    rw [isExpired_mono hExpired (hReads now hNow)] at hLive
    cases hLive
  cases hOutcome with
  | packet hPacket h =>
    exact h.spares (hSpares.1 _ _ _ hPacket) hGet (isExpired_mono hExpired (hReads _ (NodeStep.reads_packet hPacket)))
  | delivered hStep _ hThere hLive =>
    subst hStep
    simp [touches, hDead rfl hThere hLive]
  | tended _ _ hTended =>
    intro e he
    obtain hClosed | rfl | ⟨c', rfl, hEdit⟩ := hTended e he
    · cases e <;> first | rfl | cases hClosed
    · rfl
    · refine decide_eq_false ?_
      cases step with
      | cleanupExpired order sweep maxOps =>
        obtain ⟨b, hThere, hLive⟩ := hEdit
        exact hDead (.inr ⟨c', .inl rfl⟩) hThere hLive
      | migrateQuicAllocation env oldAddr newAddr =>
        obtain rfl : c' = oldAddr := hEdit
        rintro rfl
        exact hDead rfl hGet (hSpares.2 env c' newAddr rfl a hGet) rfl
      | _ => cases hEdit
  | @migrated env oldAddr newAddr _ hStep hMove =>
    subst hStep
    have hNe : oldAddr ≠ c := by
      rintro rfl
      exact hDead rfl hGet (hSpares.2 env oldAddr newAddr rfl a hGet) rfl
    simp [touches, hNe]
  | loaded _ _ hLoaded =>
    intro e he
    obtain rfl | ⟨row, -, s, rfl⟩ := hLoaded e he <;> rfl
  | adopted | drained => simp [touches]

end Untouched

/-! ## As if it were removed -/

/-- `q` is `p` without the allocation at `c`, as its removal leaves it. -/
structure Lacks (c : SocketAddr) (p q : Processor) : Prop where
  settings : q.settings = p.settings
  transactions : q.udpTransactions = p.udpTransactions
  gone : q.store.get c = none
  others : ∀ c', c' ≠ c → q.store.get c' = p.store.get c'
  relay : ∀ relayAddr c', q.store.getByRelay relayAddr = some c' → p.store.getByRelay relayAddr = some c'

def Processor.removed (p : Processor) (order : IterOrder) (clock : Clock) (c : SocketAddr) (a : Allocation) : Processor :=
  { p with store := (p.store.remove order clock c a.relayAddr).2 }

theorem lacks_removed (p : Processor) (order : IterOrder) (clock : Clock) {c : SocketAddr}
    (hGet : p.store.get c = some a) : Lacks c p (p.removed order clock c a) := by
  obtain ⟨reason, hStep⟩ := remove_event p.store order clock hGet
  cases hStep with
  | closed _ hAllocations hRelay =>
    refine ⟨rfl, rfl, ?_, fun c' hNe => ?_, fun relayAddr c' hIndex => ?_⟩
    · rw [AllocationStore.get, removed, hAllocations, HashMap.get_remove_self]
    · rw [AllocationStore.get, removed, hAllocations, HashMap.get_remove_ne _ hNe]
      rfl
    · rw [AllocationStore.getByRelay, removed, hRelay] at hIndex
      exact HashMap.get_of_get_remove hIndex

/-- Two nodes answer with the same actions, and neither changes but for the replay cache. -/
def Alike (p q : Processor) (r r' : List Action × Processor) : Prop :=
  ∃ actions cache, r = (actions, { p with udpTransactions := cache }) ∧
    r' = (actions, { q with udpTransactions := cache })

section Removed

variable {p q : Processor} {c src : SocketAddr} {a : Allocation} {env : Surroundings} {msg : StunMessage} {raw : Bytes}

theorem Lacks.alike (h : Lacks c p q) (actions : List Action) : Alike p q (actions, p) (actions, q) :=
  ⟨actions, p.udpTransactions, rfl, by rw [← h.transactions]⟩

theorem Lacks.handleBinding (h : Lacks c p q) : q.handleBinding env msg raw src = p.handleBinding env msg raw src := by
  rw [Processor.handleBinding, Processor.handleBinding, Processor.bindingKey, Processor.bindingKey, h.settings]

/-- No authenticated request of the kinds that do not look at the expiry, and no Allocate. -/
structure Harmless (env : Surroundings) (msg : StunMessage) (raw : Bytes) (src : SocketAddr) : Prop where
  allocate : msg.cls = .request → msg.method ≠ .allocate
  unproven : msg.cls = .request → msg.method = .refresh ∨ msg.method = .createPermission ∨ msg.method = .channelBind →
    ∀ auth, authenticate env msg src raw ≠ .ok auth

theorem Lacks.handleSendIndication (h : Lacks c p q) (hGet : p.store.get c = some a)
    (hExpired : a.isExpired env.clock.now = true) :
    p.handleSendIndication env msg c = ([.none], p) ∧ q.handleSendIndication env msg c = ([.none], q) := by
  constructor
  · rw [Processor.handleSendIndication]
    split
    · dsimp only
      rw [hGet]
      simp only [hExpired, if_true, ite_self]
    · rfl
  · rw [Processor.handleSendIndication]
    split
    · dsimp only
      rw [h.gone]
      simp only [ite_self]
    · rfl

theorem Harmless.authenticate_error (h : Harmless env msg raw src) (hRequest : msg.cls = .request)
    (hMethod : msg.method = .refresh ∨ msg.method = .createPermission ∨ msg.method = .channelBind) :
    ∃ actions, authenticate env msg src raw = .error actions := by
  cases hAuth : authenticate env msg src raw with
  | error actions => exact ⟨actions, rfl⟩
  | ok auth => exact absurd hAuth (h.unproven hRequest hMethod auth)

section

variable (h : Lacks c p q) (hGet : p.store.get c = some a) (hExpired : a.isExpired env.clock.now = true)
include h hGet hExpired

theorem Lacks.dispatchStun (hHarmless : Harmless env msg raw src) (hSend : msg.cls = .indication → src = c)
    (hRedirect : q.maybeRedirectNewClient env msg src = p.maybeRedirectNewClient env msg src) (ingressTcp : Bool) :
    ∃ actions, p.dispatchStun env msg raw src ingressTcp = (actions, p) ∧
      q.dispatchStun env msg raw src ingressTcp = (actions, q) := by
  rw [Processor.dispatchStun, Processor.dispatchStun, hRedirect]
  split
  · exact ⟨_, rfl, rfl⟩
  split
  · rw [h.handleBinding]
    exact ⟨_, rfl, rfl⟩
  · next hRequest hMethod => exact absurd hMethod (hHarmless.allocate hRequest)
  · next hRequest hMethod =>
    obtain ⟨actions, hAuth⟩ := hHarmless.authenticate_error hRequest (.inl hMethod)
    split
    · exact ⟨_, rfl, rfl⟩
    · rw [handleRefresh, handleRefresh, hAuth]
      exact ⟨_, rfl, rfl⟩
  · next hRequest hMethod =>
    obtain ⟨actions, hAuth⟩ := hHarmless.authenticate_error hRequest (.inr (.inl hMethod))
    split
    · exact ⟨_, rfl, rfl⟩
    · rw [handleCreatePermission, handleCreatePermission, hAuth]
      exact ⟨_, rfl, rfl⟩
  · next hRequest hMethod =>
    obtain ⟨actions, hAuth⟩ := hHarmless.authenticate_error hRequest (.inr (.inr hMethod))
    split
    · exact ⟨_, rfl, rfl⟩
    · rw [handleChannelBind, handleChannelBind, hAuth]
      exact ⟨_, rfl, rfl⟩
  · next hIndication _ =>
    rw [hSend hIndication]
    obtain ⟨hP, hQ⟩ := @Lacks.handleSendIndication p q c a env msg h hGet hExpired
    exact ⟨_, hP, hQ⟩
  · exact ⟨_, rfl, rfl⟩

theorem Lacks.processStun (hHarmless : ∀ msg, StunMessage.decode raw = .ok msg → Harmless env msg raw src ∧
      (msg.cls = .indication → src = c) ∧
        q.maybeRedirectNewClient env msg src = p.maybeRedirectNewClient env msg src) (ingressTcp : Bool) :
    Alike p q (p.processStun env raw src ingressTcp) (q.processStun env raw src ingressTcp) := by
  rw [Processor.processStun, Processor.processStun]
  split
  · exact h.alike _
  next msg hDecode =>
  obtain ⟨hPacket, hSend, hRedirect⟩ := hHarmless msg hDecode
  split
  · dsimp only
    rw [h.transactions]
    split
    · exact ⟨_, _, rfl, rfl⟩
    · exact ⟨_, _, rfl, rfl⟩
    · obtain ⟨actions, hP, hQ⟩ := h.dispatchStun hGet hExpired hPacket hSend hRedirect false
      rw [processFresh, processFresh, hP, hQ]
      dsimp only
      rw [h.transactions]
      exact ⟨_, _, rfl, rfl⟩
  · obtain ⟨actions, hP, hQ⟩ := h.dispatchStun hGet hExpired hPacket hSend hRedirect ingressTcp
    rw [hP, hQ]
    exact h.alike actions

theorem Lacks.channelDataDecision (hSrc : src = c ∨ p.store.get src = none) :
    p.channelDataDecision env raw src = (none, p) ∧ q.channelDataDecision env raw src = (none, q) := by
  have hGone : q.store.get src = none := by
    by_cases hEq : src = c
    · rw [hEq]
      exact h.gone
    · rw [h.others src hEq]
      exact hSrc.resolve_left hEq
  rw [Processor.channelDataDecision, Processor.channelDataDecision, hGone]
  split
  · exact ⟨rfl, rfl⟩
  obtain rfl | hVacant := hSrc
  · rw [hGet]
    simp only [hExpired, if_true, and_self]
  · rw [hVacant]
    exact ⟨rfl, rfl⟩

end

/-- Any packet from there but an Allocate, or a Refresh with a ticket that names it. -/
def ConcernsPacket (p : Processor) (c : SocketAddr) (env : Surroundings) (raw : Bytes) (src : SocketAddr) : Prop :=
  (src = c ∧ ∀ msg, StunMessage.decode raw = .ok msg → msg.cls = .request → msg.method ≠ .allocate) ∨
    ∃ msg, StunMessage.decode raw = .ok msg ∧ msg.cls = .request ∧ msg.method = .refresh ∧
      p.refreshTarget env msg src = some c

theorem ConcernsPacket.source (h : ConcernsPacket p c env raw src) : src = c ∨ p.store.get src = none := by
  obtain ⟨hSrc, -⟩ | ⟨msg, -, -, -, hTarget⟩ := h
  · exact .inl hSrc
  cases hGet : p.store.get src with
  | none => exact .inr rfl
  | some b =>
    rw [refreshTarget_some hGet] at hTarget
    exact .inl (Option.some.inj hTarget)

theorem ConcernsPacket.harmless (h : ConcernsPacket p c env raw src) (hSpares : SparesPacket p env raw src)
    (hGet : p.store.get c = some a) (hExpired : a.isExpired env.clock.now = true)
    (hDecode : StunMessage.decode raw = .ok msg) :
    Harmless env msg raw src ∧ (msg.cls = .indication → src = c) := by
  have hAbsurd {P : Prop} (hLive : a.isExpired env.clock.now = false) : P := by
    rw [hExpired] at hLive
    cases hLive
  obtain ⟨rfl, hAllocate⟩ | ⟨msg', hDecode', hRequest, hRefresh, hTarget⟩ := h
  · refine ⟨⟨hAllocate msg hDecode, fun hRequest hMethod auth hAuth => ?_⟩, fun _ => rfl⟩
    obtain hRefresh | hInstall := hMethod
    · exact hAbsurd (hSpares.refresh msg auth ⟨hDecode, hRequest, hRefresh, hAuth⟩ src a (refreshTarget_some hGet) hGet)
    · exact hAbsurd (hSpares.install msg.method msg auth hInstall ⟨hDecode, hRequest, rfl, hAuth⟩ a hGet)
  · cases hDecode.symm.trans hDecode'
    refine ⟨⟨fun _ hMethod => ?_, fun _ _ auth hAuth => ?_⟩, fun hIndication => ?_⟩
    · rw [hRefresh] at hMethod
      cases hMethod
    · exact hAbsurd (hSpares.refresh msg auth ⟨hDecode, hRequest, hRefresh, hAuth⟩ c a hTarget hGet)
    · rw [hRequest] at hIndication
      cases hIndication

theorem Lacks.maybeRedirect (h : Lacks c p q) (hSpares : SparesPacket p env raw src) (hGet : p.store.get c = some a)
    (hExpired : a.isExpired env.clock.now = true) :
    q.maybeRedirectNewClient env msg src = p.maybeRedirectNewClient env msg src := by
  rw [maybeRedirectNewClient, maybeRedirectNewClient]
  by_cases hEq : src = c
  · subst hEq
    rw [h.gone, hGet, hSpares.redirect a hGet hExpired]
    rfl
  · rw [h.others src hEq]

section

variable (h : Lacks c p q) (hGet : p.store.get c = some a) (hExpired : a.isExpired env.clock.now = true)
include h hGet hExpired

theorem Lacks.processImpl
    (hConcerns : ConcernsPacket p c env raw src) (hSpares : SparesPacket p env raw src) (ingressTcp : Bool) :
    Alike p q (p.processImpl env raw src ingressTcp) (q.processImpl env raw src ingressTcp) := by
  obtain ⟨hP, hQ⟩ := @Lacks.channelDataDecision p q c src a env raw h hGet hExpired hConcerns.source
  rw [Processor.processImpl, Processor.processImpl]
  split
  · exact h.alike _
  split
  · exact h.alike _
  split
  · split
    · exact h.alike _
    · rw [processChannelData, processChannelData, hP, hQ]
      exact h.alike _
  · split
    · exact h.alike _
    refine h.processStun hGet hExpired (fun msg hDecode => ?_) ingressTcp
    obtain ⟨hHarmless, hSend⟩ := hConcerns.harmless hSpares hGet hExpired hDecode
    exact ⟨hHarmless, hSend, h.maybeRedirect hSpares hGet hExpired⟩

theorem Lacks.processSlice (hConcerns : ConcernsPacket p c env raw src) (hSpares : SparesPacket p env raw src) :
    Alike p q (p.processSlice env raw src) (q.processSlice env raw src) := by
  obtain ⟨hP, hQ⟩ := @Lacks.channelDataDecision p q c src a env raw h hGet hExpired hConcerns.source
  rw [Processor.processSlice, Processor.processSlice]
  split
  · split
    · exact h.alike _
    split
    · exact h.alike _
    · rw [hP, hQ]
      exact h.alike _
  · exact h.processImpl hGet hExpired hConcerns hSpares false

theorem Lacks.processRelayRecv {data : Bytes} {peerAddr relayAddr : SocketAddr}
    (hIndex : p.store.getByRelay relayAddr = some c) :
    Alike p q (p.processRelayRecv env data peerAddr relayAddr) (q.processRelayRecv env data peerAddr relayAddr) := by
  have hP : p.processRelayRecv env data peerAddr relayAddr = ([.none], p) := by
    rw [Processor.processRelayRecv, hIndex]
    dsimp only
    rw [hGet]
    simp only [hExpired, if_true]
  have hQ : q.processRelayRecv env data peerAddr relayAddr = ([.none], q) := by
    rw [Processor.processRelayRecv]
    cases hFound : q.store.getByRelay relayAddr with
    | none => rfl
    | some c' =>
      cases hIndex.symm.trans (h.relay relayAddr c' hFound)
      dsimp only
      rw [h.gone]
  rw [hP, hQ]
  exact h.alike _

end

end Removed

def Concerns (p : Processor) (c : SocketAddr) : NodeStep → Prop
  | .process env raw src => ConcernsPacket p c env raw src
  | .processTcpControl env raw src => ConcernsPacket p c env raw src
  | .processSlice env raw src => ConcernsPacket p c env raw src
  | .processRelayRecv _ _ _ relayAddr => p.store.getByRelay relayAddr = some c
  | _ => False

/-- From `t` on every request about `a` is answered as on the node from which it is removed, and changes nothing but
the replay cache. -/
structure AsRemoved (p : Processor) (c : SocketAddr) (a : Allocation) (t : Nat) : Prop where
  steps : ∀ step order clock, Concerns p c step → Spares p step → (∀ now, step.Reads now → t ≤ now) →
    Alike p (p.removed order clock c a) (step.run p) (step.run (p.removed order clock c a))
  connect : ∀ env msg raw order clock, (∀ auth, authenticate env msg c raw ≠ .ok auth) →
    p.connectDecision env msg raw c = (p.removed order clock c a).connectDecision env msg raw c

theorem asRemoved {p : Processor} {c : SocketAddr} {t : Nat} (hGet : p.store.get c = some a)
    (hExpired : a.isExpired t = true) : AsRemoved p c a t where
  steps step order clock hConcerns hSpares hReads := by
    have hLacks := lacks_removed p order clock hGet
    have hThen {env : Surroundings} (hNow : step.Reads env.clock.now) : a.isExpired env.clock.now = true :=
      isExpired_mono hExpired (hReads _ hNow)
    cases step with
    | process env raw src => exact hLacks.processImpl hGet (hThen rfl) hConcerns (hSpares.1 _ _ _ rfl) false
    | processTcpControl env raw src => exact hLacks.processImpl hGet (hThen rfl) hConcerns (hSpares.1 _ _ _ rfl) true
    | processSlice env raw src => exact hLacks.processSlice hGet (hThen rfl) hConcerns (hSpares.1 _ _ _ rfl)
    | processRelayRecv env data peerAddr relayAddr => exact hLacks.processRelayRecv hGet (hThen rfl) hConcerns
    | _ => cases hConcerns
  connect env msg raw order clock hAuth := by
    rw [connectDecision, connectDecision]
    split
    · rfl
    · next auth hOk => exact absurd hOk (hAuth auth)

/-! ## Runs -/

def sentAt (now : Nat) (msg : StunMessage) (src : SocketAddr) : NodeStep :=
  .process (Scenario.surroundings Scenario.longTerm now) (Scenario.wire msg) src

def briefAllocate : NodeStep :=
  sentAt 0 (Scenario.request .allocate 1 "alice" [.requestedTransport transportUdp, .lifetime 10]) (Scenario.client 1)

def latePacket : NodeStep :=
  .processRelayRecv (Scenario.surroundings Scenario.longTerm (secs 20)) [1] (Scenario.peer 1) (.v4 ⟨203, 0, 113, 1⟩ 50000)

def lateSweep : SweepClock :=
  ⟨secs 21, fun _ => secs 21, fun _ => secs 21, fun _ => secs 21, fun _ => ⟨secs 21, 21000⟩⟩

/-- Ten seconds after its expiry an allocation is refreshed and lives on. -/
theorem expired_refreshed : ∃ (p : Processor) (step : NodeStep) (c : SocketAddr) (a a' : Allocation) (now : Nat),
    p = briefAllocate.apply server ∧ p.store.get c = some a ∧ step.Reads now ∧ a.isExpired now = true ∧
      (step.apply p).store.get c = some a' ∧ a'.isExpired now = false := by
  have hBefore : ((briefAllocate.apply server).store.get (client 1)).any
      (fun a => a.isExpired (secs 20)) = true := by decide +kernel
  have hAfter : (((sentAt (secs 20) (request .refresh 2 "alice" []) (client 1)).apply
      (briefAllocate.apply server)).store.get (client 1)).any
      (fun a => !a.isExpired (secs 20)) = true := by decide +kernel
  obtain ⟨a, hGet, hExpired⟩ := (Option.any_eq_true _ _).mp hBefore
  obtain ⟨a', hGet', hLive⟩ := (Option.any_eq_true _ _).mp hAfter
  refine ⟨_, sentAt (secs 20) (request .refresh 2 "alice" []) (client 1), _, a, a', secs 20, rfl,
    hGet, rfl, hExpired, hGet', ?_⟩
  simpa using hLive

/-- Along every run in the order of time that spares expired allocations. -/
theorem expiry_final (p : Processor) (steps : List NodeStep) (t : Nat) (hTimed : Timed t steps)
    (hSpares : Trace.Allowed NodeStep.apply Spares p steps) (c : SocketAddr) (a : Allocation)
    (hGet : p.store.get c = some a) (hExpired : a.isExpired t = true) (done : List NodeStep) (hDone : done <+: steps) :
    (∃ earlier, earlier <+: done ∧ (Trace.run NodeStep.apply p earlier).store.get c = none) ∨
      ((Trace.run NodeStep.apply p done).store.get c = some a ∧ AsRemoved (Trace.run NodeStep.apply p done) c a t) := by
  induction done generalizing p steps t with
  | nil => exact .inr ⟨hGet, asRemoved hGet hExpired⟩
  | cons step done ih =>
    cases hTimed with
    | nil => cases prefix_nil.mp hDone
    | @cons _ t' _ rest hWithin hLater hRest =>
      obtain ⟨rfl, hRestDone⟩ := cons_prefix_cons.mp hDone
      obtain hKept | hGone := expired_kept hSpares.1 (fun now hNow => (hWithin now hNow).1) hGet hExpired
      · obtain ⟨earlier, hEarlier, hGone⟩ | ⟨hThere, -⟩ :=
          ih (step.apply p) rest t' hRest hSpares.2 hKept (isExpired_mono hExpired hLater) hRestDone
        · exact .inl ⟨step :: earlier, cons_prefix_cons.mpr ⟨rfl, hEarlier⟩, hGone⟩
        · exact .inr ⟨hThere, asRemoved hThere hExpired⟩
      · exact .inl ⟨[step], cons_prefix_cons.mpr ⟨rfl, nil_prefix⟩, hGone⟩

theorem expiry_final_brief : ∃ (p : Processor) (a : Allocation) (steps : List NodeStep),
    p = briefAllocate.apply server ∧ steps.length = 2 ∧ p.store.get (client 1) = some a ∧
      a.isExpired (secs 20) = true ∧
      ((∃ earlier, earlier <+: steps ∧ (Trace.run NodeStep.apply p earlier).store.get (client 1) = none) ∨
        ((Trace.run NodeStep.apply p steps).store.get (client 1) = some a ∧
          AsRemoved (Trace.run NodeStep.apply p steps) (client 1) a (secs 20))) := by
  have hBefore : ((briefAllocate.apply server).store.get (client 1)).any
      (fun a => a.isExpired (secs 20)) = true := by decide +kernel
  obtain ⟨a, hGet, hExpired⟩ := (Option.any_eq_true _ _).mp hBefore
  refine ⟨_, a, [latePacket, .cleanupExpired .stored lateSweep 10], rfl, rfl, hGet, hExpired, ?_⟩
  refine expiry_final _ [latePacket, .cleanupExpired .stored lateSweep 10] (secs 20) (@Timed.cons _ (secs 21) _ _ ?_ (by decide)
    (@Timed.cons _ (secs 21) _ _ ?_ (by decide) .nil)) ?_ _ a hGet hExpired _ (prefix_refl _)
  · rintro now rfl
    exact ⟨Nat.le_refl _, by decide⟩
  · rintro now (rfl | ⟨c, rfl | rfl | rfl | rfl⟩) <;> exact ⟨Nat.le_refl _, Nat.le_refl _⟩
  · exact ⟨⟨fun _ _ _ h => (by cases h), fun _ _ _ h => (by cases h)⟩,
      ⟨fun _ _ _ h => (by cases h), fun _ _ _ h => (by cases h)⟩, trivial⟩

end

/-! ## Where allocations come from -/

def refreshMessage (raw : Bytes) : Option StunMessage :=
  match StunMessage.decode raw with
  | .ok msg => if msg.cls = .request ∧ msg.method = .refresh then some msg else none
  | .error _ => none

namespace Processor

variable (p : Processor) (env : Surroundings)

def movesFrom (raw : Bytes) (src : SocketAddr) : Option SocketAddr := do
  let msg ← refreshMessage raw
  p.refreshTarget env msg src

end Processor

section Packets

variable {p p' : Processor} {env : Surroundings} {raw : Bytes} {src c : SocketAddr} {es : List TableEvent}
  {actions : List Action}

/-- It may take away the allocation that its ticket names. -/
theorem PacketOutcome.elsewhere (h : PacketOutcome p env raw src es actions p') (hNe : c ≠ src) :
    p'.store.get c = p.store.get c ∨
      (p'.store.get c = none ∧ p.store.get src = none ∧ p.movesFrom env raw src = some c) := by
  have hRun := h.run
  have hOther : src ≠ c := hNe.symm
  cases h with
  | idle => exact .inl (hRun.get_other (by simp [concerns]))
  | relayed | closed => exact .inl (hRun.get_other (by simp [concerns, hOther]))
  | edited _ _ _ _ hEdits =>
    refine .inl (hRun.get_other fun e he => ?_)
    rw [hEdits e he]
    exact decide_eq_false hOther
  | @moved oldAddr rest msg auth a _ _ hAsked hVacant hTarget _ _ hRest =>
    have hAway : ∀ e ∈ rest, e.concerns c = false := by
      obtain rfl | ⟨b, reason, rfl⟩ := hRest <;> simp [concerns, hOther]
    by_cases hOld : oldAddr = c
    · subst hOld
      cases hRun with
      | cons hMove hTail =>
        refine .inr ⟨(hTail.get_other hAway).trans hMove.get_moved.2, hVacant, ?_⟩
        rw [movesFrom, refreshMessage, hAsked.decoded]
        dsimp only
        rw [if_pos ⟨hAsked.request, hAsked.method⟩]
        exact hTarget
    · refine .inl (hRun.get_other fun e he => ?_)
      obtain rfl | hIn := List.mem_cons.mp he
      · simp [concerns, hOld, hOther]
      · exact hAway e hIn
  | @created rest _ _ a _ _ _ _ hClient _ hRest =>
    refine .inl (hRun.get_other fun e he => ?_)
    obtain rfl | hIn := List.mem_cons.mp he
    · simp [concerns, hClient, hOther]
    obtain rfl | rfl := hRest
    · cases hIn
    · rw [List.mem_singleton.mp hIn]
      exact decide_eq_false hOther

theorem PacketOutcome.moved_from (h : PacketOutcome p env raw src es actions p') {old : SocketAddr}
    (hVacant : p.store.get src = none) (hMoves : p.movesFrom env raw src = some old) {a : Allocation}
    (hThere : p.store.get old = some a) (hGone : p'.store.get old = none) :
    ∃ rest, TableRun (.moved old src :: rest) p.store p'.store ∧ ∀ e ∈ rest, e.fills = false := by
  have hNe : old ≠ src := by
    rintro rfl
    rw [hThere] at hVacant
    cases hVacant
  have hOther : src ≠ old := hNe.symm
  have hStill : p'.store.get old ≠ p.store.get old := by
    rw [hGone, hThere]
    exact nofun
  have hRun := h.run
  cases h with
  | idle => exact absurd (hRun.get_other (by simp [concerns])) hStill
  | relayed | closed => exact absurd (hRun.get_other (by simp [concerns, hOther])) hStill
  | edited _ _ _ _ hEdits =>
    refine absurd (hRun.get_other fun e he => ?_) hStill
    rw [hEdits e he]
    exact decide_eq_false hOther
  | @moved oldAddr rest msg auth b _ _ hAsked _ hTarget _ _ hRest =>
    have hSame : p.movesFrom env raw src = some oldAddr := by
      rw [movesFrom, refreshMessage, hAsked.decoded]
      dsimp only
      rw [if_pos ⟨hAsked.request, hAsked.method⟩]
      exact hTarget
    rw [hMoves] at hSame
    cases hSame
    refine ⟨rest, hRun, ?_⟩
    obtain rfl | ⟨b, reason, rfl⟩ := hRest <;> simp [fills]
  | @created rest _ _ b _ _ _ _ hClient _ hRest =>
    refine absurd (hRun.get_other fun e he => ?_) hStill
    obtain rfl | hIn := List.mem_cons.mp he
    · simp [concerns, hClient, hOther]
    obtain rfl | rfl := hRest
    · cases hIn
    · rw [List.mem_singleton.mp hIn]
      exact decide_eq_false hOther

end Packets

/-! ## Steps of a node -/

namespace NodeStep

def movedFrom (p : Processor) (step : NodeStep) (c : SocketAddr) : Option SocketAddr :=
  match step with
  | .migrateQuicAllocation _ oldAddr newAddr =>
    if c = newAddr ∧ (p.store.get newAddr).isNone ∧ (p.store.get oldAddr).isSome then some oldAddr else none
  | step =>
    match step.packet? with
    | some (env, raw, src) =>
      if c = src ∧ (p.store.get src).isNone then
        (p.movesFrom env raw src).filter fun old => (p.store.get old).isSome && ((step.apply p).store.get old).isNone
      else none
    | none => none

inductive Lineage (p : Processor) (step : NodeStep) (c : SocketAddr) (a' : Allocation) : Prop where
  | moved {old : SocketAddr} {a : Allocation} (hFrom : step.movedFrom p c = some old) (hGet : p.store.get old = some a)
      (hId : a'.allocationId = a.allocationId) (hEpoch : a'.migrationEpoch = a.migrationEpoch + 1)
      (hGone : (step.apply p).store.get old = none)
  | stayed {a : Allocation} (hFrom : step.movedFrom p c = none) (hGet : p.store.get c = some a) (hSame : SameTicket a a')
  | entered (hFrom : step.movedFrom p c = none) (hVacant : p.store.get c = none)

theorem movedFrom_packet {p : Processor} {step : NodeStep} {env : Surroundings} {raw : Bytes} {src c : SocketAddr}
    (h : step.packet? = some (env, raw, src)) : step.movedFrom p c = if c = src ∧ (p.store.get src).isNone then
      (p.movesFrom env raw src).filter fun old => (p.store.get old).isSome && ((step.apply p).store.get old).isNone
      else none := by
  cases step <;> cases h <;> rfl

theorem movedFrom_spec {p : Processor} {step : NodeStep} {c old : SocketAddr} (h : step.movedFrom p c = some old) :
    p.store.get c = none ∧ (∃ a, p.store.get old = some a) ∧ (step.apply p).store.get old = none ∧
      ∃ rest, TableRun (.moved old c :: rest) p.store (step.apply p).store ∧ ∀ e ∈ rest, e.fills = false := by
  cases hPacket : step.packet? with
  | some packet =>
    obtain ⟨env, raw, src⟩ := packet
    rw [movedFrom_packet hPacket] at h
    split at h
    · next hSrc =>
      obtain ⟨rfl, hVacant⟩ := hSrc
      rw [isNone_iff_eq_none] at hVacant
      obtain ⟨hMoves, hTaken⟩ := filter_eq_some_iff.mp h
      obtain ⟨hThere, hGone⟩ := Bool.and_eq_true_iff.mp hTaken
      obtain ⟨a, hGet⟩ := isSome_iff_exists.mp hThere
      have hAway := isNone_iff_eq_none.mp hGone
      obtain ⟨es, hOutcome⟩ := packet_outcome p hPacket
      exact ⟨hVacant, ⟨a, hGet⟩, hAway, hOutcome.moved_from hVacant hMoves hGet hAway⟩
    · cases h
  | none =>
    cases step with
    | migrateQuicAllocation env oldAddr newAddr =>
      rw [movedFrom] at h
      split at h
      · next hMoves =>
        obtain ⟨rfl, hVacant, hThere⟩ := hMoves
        cases h
        rw [isNone_iff_eq_none] at hVacant
        obtain ⟨a, hGet⟩ := isSome_iff_exists.mp hThere
        have hStep := reKey_event p.store env.order env.clock hGet hVacant
        have hStore : (apply p (.migrateQuicAllocation env old c)).store = (p.store.reKey env.order env.clock old c).2 := by
          rw [apply, run, Processor.migrateQuicAllocation, if_neg hStep.get_moved.1, hGet]
        rw [hStore]
        exact ⟨hVacant, ⟨a, hGet⟩, hStep.get_moved.2, [], .single hStep, by simp⟩
      · cases h
    | _ => first | cases h | cases hPacket

theorem lineage (p : Processor) (step : NodeStep) {c : SocketAddr} {a' : Allocation}
    (hGet' : (step.apply p).store.get c = some a') : Lineage p step c a' := by
  cases hFrom : step.movedFrom p c with
  | some old =>
    obtain ⟨-, -, hGone, rest, hRun, hTended⟩ := movedFrom_spec hFrom
    obtain ⟨a, hGet, hId, hEpoch⟩ := hRun.moved_ticket hTended hGet'
    exact .moved hFrom hGet hId hEpoch hGone
  | none =>
    cases hGet : p.store.get c with
    | none => exact .entered hFrom hGet
    | some a =>
      obtain ⟨es, hOutcome⟩ := step.outcome p
      exact .stayed hFrom hGet (hOutcome.run.sameTicket hOutcome.shape hGet hGet')

end NodeStep

end Turna.Relay
