import Turna.Relay.Outcomes

/-! # Runs of a node

The steps of a node that reach its store, one after another: packets from clients and peers, connections
that end or move, sweeps, deletions by an administrator, and rows restored at startup or taken over from
a dead peer.
-/

namespace Turna.Relay
open Lib Net Crypto Stun Auth Session Transport Processor List Int AllocationStore TableEvent

namespace Processor

variable (p : Processor)

def cleanupExpired (order : IterOrder) (sweep : SweepClock) (maxOps : Nat) : Processor :=
  let (removed, store) := p.store.cleanupExpiredBudget order sweep maxOps
  { p with store, activeAllocations := p.activeAllocations - removed }

def forceRemove (env : Surroundings) (clientAddr : SocketAddr) : Processor :=
  { p with
    store := p.store.forceRemove env.order env.clock clientAddr
    activeAllocations := p.activeAllocations - 1 }

/-- The `delete_allocation` command: the first allocation whose relay address prints as `relayId`. -/
def deleteAllocation (env : Surroundings) (relayId : String) : Processor :=
  match (env.order.visit p.store.allocations.entries).find? (fun e => e.2.relayAddr.toString = relayId) with
  | some e => p.forceRemove env e.2.clientAddr
  | none => p

/-- The user's allocations are listed first and then removed in turn. -/
def removeUser (env : Surroundings) (user : String) : Processor :=
  (((env.order.visit p.store.allocations.entries).filter (fun e => e.2.username = user)).map
    (fun e => e.2.clientAddr)).foldl (fun p c => p.forceRemove env c) p

def restoreRows (order : IterOrder) (rows : List (Clock × RehydrateRow)) (acc : Nat × AllocationStore) :
    Nat × AllocationStore :=
  rows.foldl (fun acc row => match acc.2.rehydrate order row.1 row.2 with
    | (.ok true, store) => (acc.1 + 1, store)
    | (_, store) => (acc.1, store)) acc

def bulkLoad (order : IterOrder) (rows : List (Clock × RehydrateRow)) : Processor :=
  let (rehydrated, store) := restoreRows order rows (0, p.store)
  { p with store, activeAllocations := p.activeAllocations + rehydrated }

/-- A row claimed from a dead peer. The failover task does not touch the gauge. -/
def adopt (order : IterOrder) (clock : Clock) (row : RehydrateRow) : Processor :=
  { p with store := (p.store.rehydrate order clock row).2 }

end Processor

inductive NodeStep where
  | process (env : Surroundings) (raw : Bytes) (src : SocketAddr)
  | processTcpControl (env : Surroundings) (raw : Bytes) (src : SocketAddr)
  | processSlice (env : Surroundings) (raw : Bytes) (src : SocketAddr)
  | processRelayRecv (env : Surroundings) (data : Bytes) (peerAddr relayAddr : SocketAddr)
  | releaseForClosedConnection (env : Surroundings) (client : SocketAddr)
  | migrateQuicAllocation (env : Surroundings) (oldAddr newAddr : SocketAddr)
  | cleanupExpired (order : IterOrder) (sweep : SweepClock) (maxOps : Nat)
  | deleteAllocation (env : Surroundings) (relayId : String)
  | removeUser (env : Surroundings) (user : String)
  | bulkLoad (order : IterOrder) (rows : List (Clock × RehydrateRow))
  | adopt (order : IterOrder) (clock : Clock) (row : RehydrateRow)
  | publish (runtime : RuntimeLimits) (userLimits : UserLimitsSnapshot)
  | usageSink (tx : Option (Channel UsageRecord))

namespace NodeStep

def run (p : Processor) : NodeStep → List Action × Processor
  | .process env raw src => p.process env raw src
  | .processTcpControl env raw src => p.processTcpControl env raw src
  | .processSlice env raw src => p.processSlice env raw src
  | .processRelayRecv env data peerAddr relayAddr => p.processRelayRecv env data peerAddr relayAddr
  | .releaseForClosedConnection env client => p.releaseForClosedConnection env client
  | .migrateQuicAllocation env oldAddr newAddr => ([], (p.migrateQuicAllocation env oldAddr newAddr).2)
  | .cleanupExpired order sweep maxOps => ([], p.cleanupExpired order sweep maxOps)
  | .deleteAllocation env relayId => ([], p.deleteAllocation env relayId)
  | .removeUser env user => ([], p.removeUser env user)
  | .bulkLoad order rows => ([], p.bulkLoad order rows)
  | .adopt order clock row => ([], p.adopt order clock row)
  | .publish runtime userLimits => ([], { p with store := { p.store with runtime, userLimits } })
  | .usageSink tx => ([], { p with store := { p.store with usageTx := tx } })

def apply (p : Processor) (step : NodeStep) : Processor := (step.run p).2

def packet? : NodeStep → Option (Surroundings × Bytes × SocketAddr)
  | .process env raw src => some (env, raw, src)
  | .processTcpControl env raw src => some (env, raw, src)
  | .processSlice env raw src => some (env, raw, src)
  | _ => none

def Edits (p : Processor) (c : SocketAddr) : NodeStep → Prop
  | .cleanupExpired _ sweep _ => ∃ a, p.store.get c = some a ∧ a.isExpired (sweep.classify c) = false
  | .migrateQuicAllocation _ oldAddr _ => c = oldAddr
  | _ => False

end NodeStep

/-- What a step of a node can do to the table, with the actions it returns. -/
inductive StepOutcome (p : Processor) (step : NodeStep) : List TableEvent → List Action → Processor → Prop where
  | packet {env : Surroundings} {raw : Bytes} {src : SocketAddr} {es : List TableEvent} {actions : List Action}
      {p' : Processor} (hPacket : step.packet? = some (env, raw, src)) (h : PacketOutcome p env raw src es actions p') :
      StepOutcome p step es actions p'
  | delivered {env : Surroundings} {data : Bytes} {peerAddr relayAddr c : SocketAddr} {a : Allocation}
      (hStep : step = .processRelayRecv env data peerAddr relayAddr) (hIndex : p.store.getByRelay relayAddr = some c)
      (hGet : p.store.get c = some a) (hLive : a.isExpired env.clock.now = false)
      (hPermission : a.hasPermission env.clock.now (normalizeAddr peerAddr) = true) :
      StepOutcome p step [.meter c data.length true]
        (encodeOrDrop (peerFrame a env.clock.now data (normalizeAddr peerAddr)) a.clientAddr)
        { p with store := p.store.meter c (a.addBytesToClient data.length) }
  | tended {es : List TableEvent} {actions : List Action} {p' : Processor} (hPacket : step.packet? = none)
      (hRun : TableRun es p.store p'.store)
      (hTended : ∀ e ∈ es, e.isClosed = true ∨ e = .quiet ∨ ∃ c, e = .edit c ∧ step.Edits p c)
      (hGauge : ClientKeyed p.store → p'.activeAllocations = p.activeAllocations + net es)
      (hActions : ∀ x ∈ actions, x = .none ∨ ∃ port, x = .closeRelay port) : StepOutcome p step es actions p'
  | migrated {env : Surroundings} {oldAddr newAddr : SocketAddr} {p' : Processor}
      (hStep : step = .migrateQuicAllocation env oldAddr newAddr)
      (hRun : TableStep (.moved oldAddr newAddr) p.store p'.store)
      (hGauge : p'.activeAllocations = p.activeAllocations) :
      StepOutcome p step [.moved oldAddr newAddr] [] p'
  | loaded {es : List TableEvent} {order : IterOrder} {rows : List (Clock × RehydrateRow)} {p' : Processor}
      (hStep : step = .bulkLoad order rows) (hRun : TableRun es p.store p'.store)
      (hLoaded : ∀ e ∈ es, e = .quiet ∨ ∃ row ∈ rows, ∃ s, e = .opened (row.2.restored s row.1))
      (hGauge : p'.activeAllocations = p.activeAllocations + net es) : StepOutcome p step es [] p'
  | adopted {order : IterOrder} {clock : Clock} {row : RehydrateRow} {p' : Processor}
      (hStep : step = .adopt order clock row) (hRehydrated : (p.store.rehydrate order clock row).1 = .ok true)
      (hRun : TableStep (.opened (row.restored p.store clock)) p.store p'.store)
      (hGauge : p'.activeAllocations = p.activeAllocations) :
      StepOutcome p step [.opened (row.restored p.store clock)] [] p'
  | drained {tx : Option (Channel UsageRecord)} (hStep : step = .usageSink tx) :
      StepOutcome p step [.sink tx] [] { p with store := { p.store with usageTx := tx } }

section Outcomes

variable (p : Processor)

theorem forceRemove_none (env : Surroundings) {c : SocketAddr} (hGet : p.store.get c = none) :
    (p.forceRemove env c).store = p.store := by
  rw [Processor.forceRemove, AllocationStore.forceRemove, show p.store.allocations.get c = none from hGet]

/-- Each of the addresses that holds an allocation is closed once. -/
theorem forceRemoves_events (env : Surroundings) (cs : List SocketAddr) :
    ∃ es, TableRun es p.store (cs.foldl (fun p c => p.forceRemove env c) p).store ∧ (∀ e ∈ es, e.isClosed = true) ∧
      (cs.foldl (fun p c => p.forceRemove env c) p).activeAllocations = p.activeAllocations - cs.length ∧
      (cs.Nodup → (∀ c ∈ cs, (p.store.get c).isSome) → es.length = cs.length) := by
  induction cs generalizing p with
  | nil => exact ⟨[], .nil _, by simp, by simp, fun _ _ => rfl⟩
  | cons c cs ih =>
    obtain ⟨es, hRun, hClosed, hGauge, hLength⟩ := ih (p.forceRemove env c)
    have hTotal : (cs.foldl (fun p c => p.forceRemove env c) (p.forceRemove env c)).activeAllocations =
        p.activeAllocations - (c :: cs).length := by
      rw [hGauge, Processor.forceRemove, length_cons]
      dsimp only
      omega
    rw [foldl_cons]
    cases hGet : p.store.get c with
    | none =>
      rw [forceRemove_none p env hGet] at hRun
      refine ⟨es, hRun, hClosed, hTotal, fun _ hAll => ?_⟩
      have hThere := hAll c mem_cons_self
      rw [hGet] at hThere
      cases hThere
    | some a =>
      have hFirst := forceRemove_event p.store env.order env.clock hGet
      refine ⟨_, .cons hFirst hRun, ?_, hTotal, fun hNodup hAll => ?_⟩
      · rintro e (_ | ⟨_, he⟩)
        · rfl
        · exact hClosed e he
      obtain ⟨hNotIn, hNodup⟩ := nodup_cons.mp hNodup
      rw [length_cons, length_cons, hLength hNodup]
      intro c' hIn
      have hNe : c' ≠ c := fun hEq => hNotIn (hEq ▸ hIn)
      have hThere := hAll c' (mem_cons_of_mem _ hIn)
      cases hFirst with
      | closed _ hAllocations =>
        rw [AllocationStore.get, Processor.forceRemove, hAllocations, HashMap.get_remove_ne _ hNe]
        exact hThere

theorem outcome_deleteAllocation (env : Surroundings) (relayId : String) :
    ∃ es, StepOutcome p (.deleteAllocation env relayId) es [] (p.deleteAllocation env relayId) := by
  rw [deleteAllocation]
  split
  · next e hFind =>
    have hMem := HashMap.mem_entries_iff.mp (env.order.mem_visit.mp (mem_of_find?_eq_some hFind))
    obtain ⟨es, hRun, hClosed, hGauge, hLength⟩ := forceRemoves_events p env [e.2.clientAddr]
    refine ⟨es, .tended rfl hRun (fun x hx => .inl (hClosed x hx)) (fun hKeyed => ?_) (by simp)⟩
    have hCount := hLength (nodup_singleton _) (fun c hIn => by
      rw [mem_singleton.mp hIn, hKeyed _ _ hMem, show p.store.get e.1 = some e.2 from hMem]
      rfl)
    rw [net_of_closed hClosed, hCount]
    exact hGauge
  · exact ⟨[], .tended rfl (.nil _) (by simp) (fun _ => (add_zero _).symm) (by simp)⟩

theorem outcome_removeUser (env : Surroundings) (user : String) :
    ∃ es, StepOutcome p (.removeUser env user) es [] (p.removeUser env user) := by
  rw [removeUser]
  generalize hList : (env.order.visit p.store.allocations.entries).filter (fun e => e.2.username = user) = l
  have hMem : ∀ e ∈ l, p.store.get e.1 = some e.2 := fun e hIn => by
    rw [← hList] at hIn
    exact HashMap.mem_entries_iff.mp (env.order.mem_visit.mp (mem_filter.mp hIn).1)
  have hNodup : (l.map Prod.fst).Nodup := by
    rw [← hList]
    refine (filter_sublist.map Prod.fst).nodup ?_
    exact ((env.order.perm p.store.allocations.entries).map Prod.fst).nodup_iff.mpr p.store.allocations.nodup_keys
  obtain ⟨es, hRun, hClosed, hGauge, hLength⟩ := forceRemoves_events p env (l.map (fun e => e.2.clientAddr))
  refine ⟨es, .tended rfl hRun (fun x hx => .inl (hClosed x hx)) (fun hKeyed => ?_) (by simp)⟩
  have hKeys : l.map (fun e => e.2.clientAddr) = l.map Prod.fst :=
    map_congr_left (fun e hIn => hKeyed _ _ (hMem e hIn))
  have hCount := hLength (hKeys ▸ hNodup) (fun c hIn => by
    rw [hKeys] at hIn
    obtain ⟨e, hListed, rfl⟩ := mem_map.mp hIn
    rw [hMem e hListed]
    rfl)
  rw [net_of_closed hClosed, hCount]
  exact hGauge

theorem outcome_cleanupExpired (order : IterOrder) (sweep : SweepClock) (maxOps : Nat) :
    ∃ es, StepOutcome p (.cleanupExpired order sweep maxOps) es [] (p.cleanupExpired order sweep maxOps) := by
  obtain ⟨edits, closes, hRun, hEdits, hClosed, hCount⟩ := cleanup_events p.store order sweep maxOps
  refine ⟨_, .tended rfl hRun ?_ (fun _ => ?_) (by simp)⟩
  · intro e he
    simp only [mem_cons, mem_append, not_mem_nil, or_false] at he
    obtain rfl | he | he | rfl := he
    · exact .inr (.inl rfl)
    · obtain ⟨c, a, rfl, hGet, hLive⟩ := hEdits e he
      exact .inr (.inr ⟨c, rfl, a, hGet, hLive⟩)
    · exact .inl (hClosed e he)
    · exact .inr (.inl rfl)
  · have hCalm : net edits = 0 := net_of_calm fun e he => by
      obtain ⟨c, a, rfl, -⟩ := hEdits e he
      rfl
    rw [Processor.cleanupExpired]
    simp only [net_cons, net_append, hCalm, net_of_closed hClosed, hCount, TableEvent.net, net_nil]
    omega

theorem outcome_releaseForClosedConnection (env : Surroundings) (client : SocketAddr) :
    ∃ es, StepOutcome p (.releaseForClosedConnection env client) es (p.releaseForClosedConnection env client).1
      (p.releaseForClosedConnection env client).2 := by
  rw [releaseForClosedConnection]
  cases hGet : p.store.get client with
  | none => exact ⟨[], .tended rfl (.nil _) (by simp) (fun _ => (add_zero _).symm) (by simp)⟩
  | some a =>
    obtain ⟨reason, hStep⟩ := refresh_closed p.store env.order env.clock hGet
    rw [show p.store.refresh env.order env.clock client 0 = (.ok (), (p.store.refresh env.order env.clock client 0).2)
      from Prod.ext (refresh_some env.order env.clock hGet 0).1 rfl]
    refine ⟨_, .tended rfl (.single hStep) (by simp [isClosed]) (fun _ => rfl) ?_⟩
    intro x hIn
    exact .inr ⟨_, mem_singleton.mp hIn⟩

theorem outcome_migrateQuicAllocation (env : Surroundings) (oldAddr newAddr : SocketAddr) :
    ∃ es, StepOutcome p (.migrateQuicAllocation env oldAddr newAddr) es []
      (p.migrateQuicAllocation env oldAddr newAddr).2 := by
  have hSame : ∃ es, StepOutcome p (.migrateQuicAllocation env oldAddr newAddr) es [] p :=
    ⟨[], .tended rfl (.nil _) (by simp) (fun _ => (add_zero _).symm) (by simp)⟩
  rw [migrateQuicAllocation]
  split
  · exact hSame
  next hNe =>
  cases hGet : p.store.get oldAddr with
  | none =>
    dsimp only
    split <;> exact hSame
  | some a =>
    cases hNew : p.store.get newAddr with
    | none => exact ⟨_, .migrated rfl (reKey_event p.store env.order env.clock hGet hNew) rfl⟩
    | some b =>
      refine ⟨_, .tended rfl (.single (reKey_taken p.store env.order env.clock hNe hGet hNew)) ?_
        (fun _ => (add_zero _).symm) (by simp)⟩
      intro e he
      exact .inr (.inr ⟨oldAddr, mem_singleton.mp he, rfl⟩)

theorem outcome_processRelayRecv (env : Surroundings) (data : Bytes) (peerAddr relayAddr : SocketAddr) :
    ∃ es, StepOutcome p (.processRelayRecv env data peerAddr relayAddr) es
      (p.processRelayRecv env data peerAddr relayAddr).1 (p.processRelayRecv env data peerAddr relayAddr).2 := by
  have hDropped : ∃ es, StepOutcome p (.processRelayRecv env data peerAddr relayAddr) es [.none] p :=
    ⟨[], .tended rfl (.nil _) (by simp) (fun _ => (add_zero _).symm) (by simp)⟩
  rw [processRelayRecv]
  split
  · exact hDropped
  next c hIndex =>
  split
  · exact hDropped
  next a hGet =>
  split
  · exact hDropped
  next hLive =>
  split
  · exact hDropped
  next hPermission =>
  split
  · exact hDropped
  split
  · exact hDropped
  · refine ⟨_, .delivered rfl hIndex hGet (Bool.eq_false_iff.mpr hLive) ?_⟩
    simpa using hPermission

theorem restoreRows_events (order : IterOrder) (rows : List (Clock × RehydrateRow)) (n : Nat) (s : AllocationStore) :
    ∃ es, TableRun es s (restoreRows order rows (n, s)).2 ∧
      (∀ e ∈ es, e = .quiet ∨ ∃ row ∈ rows, ∃ s, e = .opened (row.2.restored s row.1)) ∧
      ((restoreRows order rows (n, s)).1 : Int) = n + net es := by
  induction rows generalizing n s with
  | nil => exact ⟨[], .nil _, by simp, (add_zero _).symm⟩
  | cons row rows ih =>
    have hEvent := rehydrate_event s order row.1 row.2
    rw [restoreRows, foldl_cons]
    generalize s.rehydrate order row.1 row.2 = r at hEvent
    obtain ⟨result, store⟩ := r
    by_cases hOk : result = .ok true
    · subst hOk
      rw [if_pos rfl] at hEvent
      obtain ⟨es, hRun, hLoaded, hCount⟩ := ih (n + 1) store
      refine ⟨_, .cons hEvent.2 hRun, ?_, ?_⟩
      · rintro e (_ | ⟨_, he⟩)
        · exact .inr ⟨row, mem_cons_self, s, rfl⟩
        obtain hQuiet | ⟨row', hIn, hOpened⟩ := hLoaded e he
        · exact .inl hQuiet
        · exact .inr ⟨row', mem_cons_of_mem _ hIn, hOpened⟩
      · rw [restoreRows] at hCount
        rw [hCount, net_cons, TableEvent.net]
        omega
    · rw [if_neg hOk] at hEvent
      have hSkip : (match (result, store) with
          | (.ok true, store) => (n + 1, store)
          | (_, store) => (n, store)) = (n, store) := by
        split
        · next h => cases h; exact absurd rfl hOk
        · next h => cases h; rfl
      obtain ⟨es, hRun, hLoaded, hCount⟩ := ih n store
      rw [hSkip]
      refine ⟨_, .cons (.quiet hEvent) hRun, ?_, ?_⟩
      · rintro e (_ | ⟨_, he⟩)
        · exact .inl rfl
        obtain hQuiet | ⟨row', hIn, hOpened⟩ := hLoaded e he
        · exact .inl hQuiet
        · exact .inr ⟨row', mem_cons_of_mem _ hIn, hOpened⟩
      · rw [restoreRows] at hCount
        rw [hCount, net_cons, show quiet.net = 0 from rfl]
        omega

theorem NodeStep.packet_outcome {step : NodeStep} {env : Surroundings} {raw : Bytes} {src : SocketAddr}
    (h : step.packet? = some (env, raw, src)) : HasOutcome p env raw src (step.run p) := by
  cases step with
  | process env raw src =>
    cases h
    exact (outcome_processImpl false).2
  | processTcpControl env raw src =>
    cases h
    exact (outcome_processImpl true).2
  | processSlice env raw src =>
    cases h
    exact outcome_processSlice.2
  | _ => cases h

theorem NodeStep.outcome (step : NodeStep) : ∃ es, StepOutcome p step es (step.run p).1 (step.run p).2 := by
  cases step with
  | process env raw src | processTcpControl env raw src | processSlice env raw src =>
    exact (packet_outcome p rfl).imp fun es h => .packet rfl h
  | processRelayRecv env data peerAddr relayAddr => exact outcome_processRelayRecv p env data peerAddr relayAddr
  | releaseForClosedConnection env client => exact outcome_releaseForClosedConnection p env client
  | migrateQuicAllocation env oldAddr newAddr => exact outcome_migrateQuicAllocation p env oldAddr newAddr
  | cleanupExpired order sweep maxOps => exact outcome_cleanupExpired p order sweep maxOps
  | deleteAllocation env relayId => exact outcome_deleteAllocation p env relayId
  | removeUser env user => exact outcome_removeUser p env user
  | bulkLoad order rows =>
    obtain ⟨es, hRun, hLoaded, hCount⟩ := restoreRows_events order rows 0 p.store
    refine ⟨es, .loaded rfl hRun hLoaded ?_⟩
    rw [NodeStep.run, Processor.bulkLoad]
    dsimp only
    omega
  | adopt order clock row =>
    have hEvent := rehydrate_event p.store order clock row
    by_cases hOk : (p.store.rehydrate order clock row).1 = .ok true
    · rw [if_pos hOk] at hEvent
      exact ⟨_, .adopted rfl hOk hEvent.2 rfl⟩
    rw [if_neg hOk] at hEvent
    exact ⟨[.quiet], .tended rfl (.single (.quiet hEvent)) (by simp) (fun _ => (add_zero _).symm)
      (fun x hIn => absurd hIn not_mem_nil)⟩
  | publish runtime userLimits =>
    exact ⟨[.quiet], .tended rfl (.single (.quiet ⟨rfl, rfl, rfl, rfl⟩)) (by simp) (fun _ => (add_zero _).symm)
      (fun x hIn => absurd hIn not_mem_nil)⟩
  | usageSink tx => exact ⟨_, .drained rfl⟩

end Outcomes

/-! ## Tables along a run -/

section Tables

variable {p p' : Processor} {env : Surroundings} {raw : Bytes} {src : SocketAddr} {es : List TableEvent}
  {actions : List Action}

theorem PacketOutcome.run (h : PacketOutcome p env raw src es actions p') : TableRun es p.store p'.store := by
  cases h with
  | idle hTables => exact .single (.quiet hTables)
  | relayed hGet _ _ _ hStore => exact .single (.meter hGet (hStore ▸ .refl _))
  | edited _ _ _ hRun | moved _ _ _ _ hRun | created _ _ _ hRun => exact hRun
  | closed _ hStep => exact .single hStep

theorem StepOutcome.run {step : NodeStep} (h : StepOutcome p step es actions p') : TableRun es p.store p'.store := by
  cases h with
  | packet _ h => exact h.run
  | delivered _ _ hGet => exact .single (.meter hGet (.refl _))
  | tended _ hRun | loaded _ hRun => exact hRun
  | migrated _ hRun | adopted _ _ hRun => exact .single hRun
  | drained => exact .single (.sink (.refl _))

theorem NodeStep.keeps {I : AllocationStore → Prop} (hEvent : ∀ e s s', TableStep e s s' → I s → I s') (p : Processor)
    (step : NodeStep) (h : I p.store) : I (step.apply p).store := by
  obtain ⟨es, hOutcome⟩ := step.outcome p
  exact hOutcome.run.invariant I hEvent h

theorem NodeStep.run_keeps {I : AllocationStore → Prop} (hEvent : ∀ e s s', TableStep e s s' → I s → I s')
    (p : Processor) (steps : List NodeStep) (h : I p.store) : I (Trace.run NodeStep.apply p steps).store := by
  induction steps generalizing p with
  | nil => exact h
  | cons step steps ih => exact ih (step.apply p) (step.keeps hEvent p h)

end Tables

def Processor.new (settings : Settings) (store : AllocationStore) (udpTransactions : UdpTransactions) : Processor where
  settings := settings
  store := store
  activeAllocations := 0
  udpTransactions := udpTransactions

/-! ## Payloads travel only with a live permission -/

structure RelaysSafely (p : Processor) : Prop where
  toClient : ∀ (env : Surroundings) (data : Bytes) (peerAddr relayAddr : SocketAddr) (frame : Bytes)
    (client : SocketAddr), .send frame client ∈ (p.processRelayRecv env data peerAddr relayAddr).1 →
      ∃ a, p.store.get client = some a ∧ a.relayAddr = relayAddr ∧ a.isExpired env.clock.now = false ∧
        a.hasPermission env.clock.now (normalizeAddr peerAddr) = true
  toPeer : ∀ (step : NodeStep) (env : Surroundings) (raw : Bytes) (src : SocketAddr),
    step.packet? = some (env, raw, src) → ∀ x ∈ (step.run p).1, ∀ n peer port, x.payload = some (n, peer, port) →
      ∃ a, p.store.get src = some a ∧ a.relayAddr.port = port ∧ a.isExpired env.clock.now = false ∧
        ((∃ channel, a.getChannelPeer env.clock.now channel = some peer) ∨
          a.hasPermission env.clock.now peer = true)
  installs : ∀ (step : NodeStep) (env : Surroundings) (raw : Bytes) (src : SocketAddr),
    step.packet? = some (env, raw, src) → ∀ c a', (step.apply p).store.get c = some a' →
      (∃ c₀ a, p.store.get c₀ = some a ∧ (c₀ = c ∨ p.store.get c = none) ∧ SameOwner a a' ∧
        Installs p.settings.policy a a') ∨ (a'.permissions = .empty ∧ a'.channelBindings = .empty)

section Safety

variable {p p' : Processor} {env : Surroundings} {raw : Bytes} {src : SocketAddr} {es : List TableEvent}
  {actions : List Action}

theorem PacketOutcome.toPeer (h : PacketOutcome p env raw src es actions p') {x : Action} (hIn : x ∈ actions) {n : Nat}
    {peer : SocketAddr} {port : UInt16} (hPayload : x.payload = some (n, peer, port)) :
    ∃ a, p.store.get src = some a ∧ a.relayAddr.port = port ∧ a.isExpired env.clock.now = false ∧
      ((∃ channel, a.getChannelPeer env.clock.now channel = some peer) ∨
        a.hasPermission env.clock.now peer = true) := by
  have hCarries : ¬ Plain actions := fun hPlain => by
    rw [hPlain x hIn] at hPayload
    cases hPayload
  cases h with
  | idle _ _ hPlain => exact absurd hPlain hCarries
  | relayed hGet hLive hAllowed hThis =>
    rw [mem_singleton.mp hIn, hThis] at hPayload
    cases hPayload
    exact ⟨_, hGet, rfl, hLive, hAllowed⟩
  | edited _ _ _ _ _ _ _ _ _ hPlain => exact absurd hPlain hCarries
  | closed _ _ _ hPlain => exact absurd hPlain hCarries
  | moved _ _ _ _ _ _ _ _ hPlain => exact absurd hPlain hCarries
  | created _ _ _ _ _ _ _ _ hPlain => exact absurd hPlain hCarries

theorem PacketOutcome.installs (h : PacketOutcome p env raw src es actions p') {c : SocketAddr} {a' : Allocation}
    (hGet' : p'.store.get c = some a') :
    (∃ c₀ a, p.store.get c₀ = some a ∧ (c₀ = c ∨ p.store.get c = none) ∧ SameOwner a a' ∧
      Installs p.settings.policy a a') ∨ (a'.permissions = .empty ∧ a'.channelBindings = .empty) := by
  have hKept (hSame : p'.store.get c = p.store.get c) : ∃ c₀ a, p.store.get c₀ = some a ∧
      (c₀ = c ∨ p.store.get c = none) ∧ SameOwner a a' ∧ Installs p.settings.policy a a' :=
    ⟨c, a', hSame.symm.trans hGet', .inl rfl, ⟨rfl, rfl, rfl, rfl, rfl⟩, .of_same rfl rfl⟩
  by_cases hSrc : c = src
  · subst hSrc
    cases h with
    | idle hTables => exact .inl (hKept (hTables.get c))
    | @relayed a _ n _ _ hGet _ _ _ hStore =>
      have hMetered : p'.store.get c = some (a.addBytes n) := by
        rw [hStore]
        exact HashMap.get_insert_self ..
      cases hMetered.symm.trans hGet'
      exact .inl ⟨c, a, hGet, .inl rfl, ⟨rfl, rfl, rfl, rfl, rfl⟩, .of_same rfl rfl⟩
    | edited _ _ hGet _ _ hNew hOwner hInstalls =>
      cases hNew.symm.trans hGet'
      exact .inl ⟨c, _, hGet, .inl rfl, hOwner, hInstalls⟩
    | closed _ hStep =>
      cases hStep with
      | closed _ hAllocations =>
        rw [AllocationStore.get, hAllocations, HashMap.get_remove_self] at hGet'
        cases hGet'
    | moved _ hVacant _ hGet _ _ hTables =>
      obtain ⟨hOwner, hPermissions, hChannels⟩ := hTables a' hGet'
      exact .inl ⟨_, _, hGet, .inr hVacant, hOwner, .of_same hPermissions hChannels⟩
    | created _ _ _ _ _ hTables => exact .inr (hTables a' hGet')
  · left
    have hRun := h.run
    cases h with
    | idle hTables => exact hKept (hTables.get c)
    | relayed | closed => exact hKept (hRun.get_other (by simp [concerns, Ne.symm hSrc]))
    | edited _ _ _ _ hEdits =>
      refine hKept (hRun.get_other fun e he => ?_)
      rw [hEdits e he]
      exact decide_eq_false (Ne.symm hSrc)
    | @moved oldAddr es _ _ _ _ _ _ _ _ _ _ hRest =>
      have hTail : ∀ e ∈ es, e.concerns c = false := by
        obtain rfl | ⟨b, reason, rfl⟩ := hRest <;> simp [concerns, Ne.symm hSrc]
      cases hRun with
      | cons hMove hRest =>
        by_cases hOld : c = oldAddr
        · subst hOld
          rw [hRest.get_other hTail, hMove.get_moved.2] at hGet'
          cases hGet'
        · refine hKept ((hRest.get_other hTail).trans (hMove.get_other ?_))
          simp [concerns, Ne.symm hSrc, Ne.symm hOld]
    | created _ _ hClient _ hRest =>
      refine hKept (hRun.get_other ?_)
      obtain rfl | rfl := hRest <;> simp [concerns, hClient, Ne.symm hSrc]

theorem toClient_of_sound (hIndex : IndexSound p.store) (hKeyed : ClientKeyed p.store) {data frame : Bytes}
    {peerAddr relayAddr client : SocketAddr}
    (h : .send frame client ∈ (p.processRelayRecv env data peerAddr relayAddr).1) :
    ∃ a, p.store.get client = some a ∧ a.relayAddr = relayAddr ∧ a.isExpired env.clock.now = false ∧
      a.hasPermission env.clock.now (normalizeAddr peerAddr) = true := by
  obtain ⟨es, hOutcome⟩ := outcome_processRelayRecv p env data peerAddr relayAddr
  generalize p.processRelayRecv env data peerAddr relayAddr = r at h hOutcome
  obtain ⟨actions, p'⟩ := r
  cases hOutcome with
  | packet hPacket => cases hPacket
  | @delivered _ _ _ _ c a hStep hThere hGet hLive hPermission =>
    cases hStep
    obtain ⟨a', hGet', hRelay⟩ := hIndex relayAddr c hThere
    cases hGet.symm.trans hGet'
    have hTarget : client = c := by
      rw [← hKeyed c a hGet]
      generalize peerFrame a env.clock.now data (normalizeAddr peerAddr) = encoded at h
      cases encoded with
      | error e => cases mem_singleton.mp h
      | ok frame =>
        cases mem_singleton.mp h
        rfl
    subst hTarget
    exact ⟨a, hGet, hRelay, hLive, hPermission⟩
  | tended _ _ _ _ hActions =>
    obtain hNone | ⟨port, hClose⟩ := hActions _ h
    · cases hNone
    · cases hClose
  | migrated | loaded | adopted | drained => cases h

end Safety

/-- In every state that a node reaches, payloads travel only with a live permission. -/
theorem relays_with_permission (settings : Settings) (minPort maxPort : UInt16) (random : UInt32) (maxAllocations : Nat)
    (tenants : List TenantRange) (transactions : UdpTransactions) (steps : List NodeStep) :
    RelaysSafely (Trace.run NodeStep.apply
      (.new settings (.configured minPort maxPort random maxAllocations tenants) transactions) steps) := by
  have hStart : IndexSound (AllocationStore.configured minPort maxPort random maxAllocations tenants) ∧
      ClientKeyed (AllocationStore.configured minPort maxPort random maxAllocations tenants) := by
    rw [configured_eq]
    constructor
    · intro r c h
      cases h
    · intro c a h
      cases h
  have hIndex := NodeStep.run_keeps (fun e s s' hStep h => IndexSound.step h hStep)
    (.new settings (.configured minPort maxPort random maxAllocations tenants) transactions) steps hStart.1
  have hKeyed := NodeStep.run_keeps (fun e s s' hStep h => ClientKeyed.step h hStep)
    (.new settings (.configured minPort maxPort random maxAllocations tenants) transactions) steps hStart.2
  generalize Trace.run NodeStep.apply _ steps = p at hIndex hKeyed ⊢
  constructor
  · intro env data peerAddr relayAddr frame client hSend
    exact toClient_of_sound hIndex hKeyed hSend
  · intro step env raw src hPacket x hIn n peer port hPayload
    obtain ⟨es, hOutcome⟩ := NodeStep.packet_outcome p hPacket
    exact hOutcome.toPeer hIn hPayload
  · intro step env raw src hPacket c a' hGet'
    obtain ⟨es, hOutcome⟩ := NodeStep.packet_outcome p hPacket
    exact hOutcome.installs hGet'

/-! ## The gauge of active allocations -/

open HashMap Scenario

def shortId (id : String) : Prop := (Utf8.encode id).length ≤ ticketIdRoom

structure ShortIds (s : AllocationStore) : Prop where
  allocations : ∀ c a, s.get c = some a → shortId a.allocationId
  index : ∀ id c, s.getById id = some c → shortId id

namespace ShortIds

variable {s s' : AllocationStore} {e : TableEvent}

theorem step (h : ShortIds s) (hStep : TableStep e s s') (hOpened : ∀ a, e = .opened a → shortId a.allocationId) :
    ShortIds s' := by
  refine ⟨fun c a' hGet' => ?_, fun id c hId => ?_⟩
  · obtain ⟨c₀, a, hGet, hSame, -⟩ | ⟨rfl, -⟩ := hStep.live hGet'
    · exact hSame.allocationId ▸ h.allocations c₀ a hGet
    · exact hOpened a' rfl
  rw [getById] at hId
  cases hStep with
  | quiet hSame | edit _ hSame | meter _ hSame | sink hSame =>
    rw [hSame.idToClient] at hId
    exact h.index id c hId
  | opened _ _ hSame =>
    rw [hSame.idToClient] at hId
    obtain ⟨rfl, -⟩ | hOld := get_insert_cases hId
    · exact hOpened _ rfl
    · exact h.index id c hOld
  | closed _ _ _ hIds => exact h.index id c (get_of_get_remove (hIds ▸ hId))
  | moved hGet _ hSame =>
    rw [hSame.idToClient] at hId
    obtain ⟨rfl, -⟩ | hOld := get_insert_cases hId
    · exact h.allocations _ _ hGet
    · exact h.index id c hOld

theorem run {es : List TableEvent} (h : ShortIds s) (hRun : TableRun es s s')
    (hOpened : ∀ a, .opened a ∈ es → shortId a.allocationId) : ShortIds s' := by
  induction hRun with
  | nil => exact h
  | cons hStep _ ih =>
    refine ih (h.step hStep fun a hEq => hOpened a (hEq ▸ mem_cons_self)) (fun a hIn => ?_)
    exact hOpened a (mem_cons_of_mem _ hIn)

end ShortIds

theorem shortId_restored {row : RehydrateRow} (h : shortId row.allocationId) (s : AllocationStore) (clock : Clock) :
    shortId (row.restored s clock).allocationId := by
  have hId : (row.restored s clock).allocationId = (s.restoredId row.allocationId).1 := rfl
  rw [hId, restoredId]
  split
  · exact length_mintId s
  · exact h

/-- A failover sweep restores nothing, and the rows of a bulk load have short ids. -/
def GaugeFollows (p : Processor) : NodeStep → Prop
  | .adopt order clock row => (p.store.rehydrate order clock row).1 ≠ .ok true
  | .bulkLoad _ rows => ∀ row ∈ rows, shortId row.2.allocationId
  | _ => True

/-- The gauge counts the store, and shows zero exactly if no allocation is live. -/
structure GaugeExact (p : Processor) : Prop where
  counts : p.activeAllocations = p.store.len
  nonneg : 0 ≤ p.activeAllocations
  empty : p.activeAllocations = 0 ↔ ∀ c, p.store.get c = none

theorem GaugeExact.of_counts {p : Processor} (h : p.activeAllocations = p.store.len) : GaugeExact p where
  counts := h
  nonneg := by omega
  empty := by
    rw [h]
    constructor
    · intro hZero c
      exact get_of_len_zero (natCast_eq_zero.mp hZero) c
    intro hEmpty
    have hLen : p.store.allocations.len = 0 := by
      rw [len_eq_zero_iff, eq_nil_iff_forall_not_mem]
      intro e hIn
      cases (hEmpty e.1).symm.trans (mem_entries_iff.mp hIn)
    exact natCast_eq_zero.mpr hLen

section Steps

variable {p p' : Processor} {es : List TableEvent} {actions : List Action}

theorem PacketOutcome.gauge {env : Surroundings} {raw : Bytes} {src : SocketAddr}
    (h : PacketOutcome p env raw src es actions p') (hShort : ShortIds p.store) :
    p'.activeAllocations = p.activeAllocations + net es := by
  cases h with
  | idle _ hGauge => exact hGauge.trans (add_zero _).symm
  | relayed _ _ _ _ _ hGauge => exact hGauge.trans (add_zero _).symm
  | edited _ _ _ _ hEdits _ _ _ hGauge =>
    rw [hGauge, net_of_calm (fun e he => by rw [hEdits e he]; rfl), add_zero]
  | closed _ _ hGauge => exact hGauge
  | moved _ _ _ _ _ _ _ hGauge =>
    obtain hGauge | ⟨id, hId, hLong⟩ := hGauge
    · rw [hGauge, net_cons, show (TableEvent.moved _ _).net = 0 from rfl, zero_add]
    · exact absurd (hShort.index id _ hId) (Nat.not_le.mpr hLong)
  | created _ _ _ _ hRest _ _ hGauge =>
    obtain rfl | rfl := hRest <;> exact hGauge

theorem PacketOutcome.opened_spec {env : Surroundings} {raw : Bytes} {src : SocketAddr}
    (h : PacketOutcome p env raw src es actions p') {a : Allocation} (hIn : .opened a ∈ es) :
    (∃ msg auth, Asked env raw src .allocate msg auth) ∧ a.clientAddr = src ∧ shortId a.allocationId := by
  cases h with
  | idle | relayed | closed => simp at hIn
  | edited _ _ _ _ hEdits => cases hEdits _ hIn
  | moved _ _ _ _ _ hRest => obtain rfl | ⟨b, reason, rfl⟩ := hRest <;> simp at hIn
  | created hAsked _ hClient _ hRest _ hShort =>
    obtain rfl | rfl := hRest <;> simp only [mem_cons, not_mem_nil, or_false, opened.injEq,
      reduceCtorEq] at hIn <;> exact hIn ▸ ⟨⟨_, _, hAsked⟩, hClient, hShort⟩

structure Gauged (p : Processor) : Prop where
  keyed : ClientKeyed p.store
  short : ShortIds p.store
  counts : p.activeAllocations = p.store.len

theorem Gauged.step (h : Gauged p) (step : NodeStep) (hFollows : GaugeFollows p step) : Gauged (step.apply p) := by
  obtain ⟨es, hOutcome⟩ := step.outcome p
  rw [NodeStep.apply]
  generalize step.run p = r at hOutcome ⊢
  obtain ⟨actions, p'⟩ := r
  have hRun := hOutcome.run
  have hKey : p'.activeAllocations = p.activeAllocations + net es ∧ ∀ a, .opened a ∈ es → shortId a.allocationId := by
    cases hOutcome with
    | packet _ hPacket => exact ⟨hPacket.gauge h.short, fun a hIn => (hPacket.opened_spec hIn).2.2⟩
    | delivered | drained => exact ⟨(add_zero _).symm, fun a hIn => by simp at hIn⟩
    | tended _ _ hTended hGauge =>
      refine ⟨hGauge h.keyed, fun a hIn => ?_⟩
      obtain hClosed | hQuiet | ⟨c, hEdit, -⟩ := hTended _ hIn
      · cases hClosed
      · cases hQuiet
      · cases hEdit
    | migrated _ _ hGauge => exact ⟨hGauge.trans (add_zero _).symm, fun a hIn => by simp at hIn⟩
    | loaded hStep _ hLoaded hGauge =>
      subst hStep
      refine ⟨hGauge, fun a hIn => ?_⟩
      obtain hQuiet | ⟨row, hRow, s, hEq⟩ := hLoaded _ hIn
      · cases hQuiet
      · cases hEq
        exact shortId_restored (hFollows row hRow) s row.1
    | adopted hStep hRehydrated =>
      subst hStep
      exact absurd hRehydrated hFollows
  refine ⟨hRun.invariant _ (fun e s s' hStep hInv => hInv.step hStep) h.keyed, h.short.run hRun hKey.2, ?_⟩
  rw [hKey.1, hRun.len, h.counts]

end Steps

theorem Gauged.start (settings : Settings) (minPort maxPort : UInt16) (random : UInt32) (maxAllocations : Nat)
    (tenants : List TenantRange) (transactions : UdpTransactions) :
    Gauged (.new settings (.configured minPort maxPort random maxAllocations tenants) transactions) := by
  rw [configured_eq]
  refine ⟨fun c a h => ?_, ⟨fun c a h => ?_, fun id c h => ?_⟩, rfl⟩
  all_goals cases h

def orphan : RehydrateRow where
  clientAddr := Scenario.client 1
  relayAddr := .v4 ⟨203, 0, 113, 1⟩ 50000
  username := "alice"
  realm := "r"
  allocationId := "a"
  migrationEpoch := 0
  createdAtMs := 0
  expiresAtMs := 600000
  permissions := []
  channels := []

/-- A failover sweep restores an allocation that the gauge does not count. -/
theorem adopted_uncounted : ∃ (settings : Settings) (store : AllocationStore) (transactions : UdpTransactions)
    (steps : List NodeStep), store = .configured 50000 50007 0 0 [] ∧
      (Trace.run NodeStep.apply (.new settings store transactions) steps).store.len = 1 ∧
      (Trace.run NodeStep.apply (.new settings store transactions) steps).activeAllocations = 0 := by
  refine ⟨settings, _, .new (fun _ => ⟨0, by decide⟩), [.adopt .stored ⟨0, 0⟩ orphan], rfl, ?_, rfl⟩
  decide +kernel

/-- Along every run whose steps the gauge follows, it counts the store. -/
theorem gauge_counts (settings : Settings) (minPort maxPort : UInt16) (random : UInt32) (maxAllocations : Nat)
    (tenants : List TenantRange) (transactions : UdpTransactions) (steps : List NodeStep)
    (hFollows : Trace.Allowed NodeStep.apply GaugeFollows
      (.new settings (.configured minPort maxPort random maxAllocations tenants) transactions) steps)
    (done : List NodeStep) (hDone : done <+: steps) :
    GaugeExact (Trace.run NodeStep.apply
      (.new settings (.configured minPort maxPort random maxAllocations tenants) transactions) done) := by
  have hGauged := (hFollows.of_prefix hDone).invariant Gauged (fun p step h hStep => h.step step hStep)
    (.start settings minPort maxPort random maxAllocations tenants transactions)
  exact .of_counts hGauged.counts

theorem gauge_counts_restored : ∃ (settings : Settings) (transactions : UdpTransactions) (steps : List NodeStep),
    steps.length = 3 ∧ GaugeExact (Trace.run NodeStep.apply
      (.new settings (.configured 50000 50007 0 0 []) transactions) steps) := by
  refine ⟨settings, .new (fun _ => ⟨0, by decide⟩),
    [.bulkLoad .stored [(⟨0, 0⟩, orphan)], .adopt .stored ⟨0, 0⟩ orphan,
      .removeUser (surroundings longTerm 0) "alice"], rfl, ?_⟩
  refine gauge_counts settings 50000 50007 0 0 [] _ _ ?_ _ (List.prefix_refl _)
  refine ⟨?_, ?_, trivial, trivial⟩
  · intro row hRow
    rw [List.mem_singleton.mp hRow, shortId]
    decide +kernel
  · rw [GaugeFollows]
    decide +kernel

/-! ## Where allocations come from and what they leave -/

section Runs

variable (p : Processor) (steps : List NodeStep)

end Runs

end Turna.Relay
