import Turna.Relay.TcpMachine

/-! # Who binds a peer connection

The log of a connection follows the order of its life, and whatever holds a connection (an entry of the manager, or a
call between two regions) holds it at one point of that life only.
-/

namespace Turna.Relay
open Lib Net HashMap Multiset TcpRelayManager TcpCall

/-! ## The life of a connection -/

namespace TcpEvent

def level : TcpEvent → Nat
  | .opened .. => 1
  | .entered .. => 2
  | .claimed .. => 3
  | .attached .. => 4
  | .relayed _ => 5
  | .unregistered _ => 5

def isOpening : TcpEvent → Bool
  | .opened .. => true
  | _ => false

def isClaim : TcpEvent → Bool
  | .claimed .. => true
  | _ => false

def isAttach : TcpEvent → Bool
  | .attached .. => true
  | _ => false

def rank (log : List TcpEvent) (id : TcpConnectionId) : Nat :=
  match log.find? fun e => e.id = id with
  | some e => e.level
  | none => 0

def Follows (log : List TcpEvent) : TcpEvent → Prop
  | .opened id _ _ => rank log id = 0
  | .entered id _ => rank log id = 1
  | .claimed id owner => rank log id = 2 ∧ ∃ r stream, .opened id r stream ∈ log ∧ r.owner = owner
  | .attached id stream => rank log id = 3 ∧ ∃ r, .opened id r stream ∈ log
  | .relayed id => rank log id = 4
  | .unregistered id => rank log id = 5

def Lawful : List TcpEvent → Prop
  | [] => True
  | e :: log => e.Follows log ∧ Lawful log

variable {e : TcpEvent} {log : List TcpEvent} {id : TcpConnectionId}

@[simp] theorem rank_cons_self : rank (e :: log) e.id = e.level := by simp [rank]

theorem rank_cons_ne (h : e.id ≠ id) : rank (e :: log) id = rank log id := by simp [rank, h]

theorem Follows.level (h : e.Follows log) : e.level = rank log e.id + 1 ∨ (e.level = 5 ∧ rank log e.id = 5) := by
  cases e with
  | opened id r stream | entered id r | relayed id => exact .inl (congrArg (· + 1) (Eq.symm h))
  | claimed id owner | attached id stream => exact .inl (congrArg (· + 1) (Eq.symm h.1))
  | unregistered id => exact .inr ⟨rfl, h⟩

namespace Lawful

theorem level_le (h : Lawful log) (hMem : e ∈ log) : e.level ≤ rank log e.id := by
  induction log with
  | nil => cases hMem
  | cons latest log ih =>
    obtain ⟨hFollows, hLog⟩ := h
    rcases List.mem_cons.mp hMem with rfl | hMem
    · rw [rank_cons_self]
    have hLe := ih hLog hMem
    by_cases hId : latest.id = e.id
    · rw [← hId] at hLe ⊢
      rw [rank_cons_self]
      have := hFollows.level
      omega
    · rwa [rank_cons_ne hId]

theorem nodup_ids (h : Lawful log) {p : TcpEvent → Bool} {k : Nat} (hk : k ≤ 4)
    (hLevel : ∀ e, p e = true → e.level = k) : ((log.filter p).map TcpEvent.id).Nodup := by
  induction log with
  | nil => exact List.nodup_nil
  | cons e log ih =>
    obtain ⟨hFollows, hLog⟩ := h
    rw [List.filter_cons]
    split
    · next hp =>
      refine List.nodup_cons.mpr ⟨fun hIn => ?_, ih hLog⟩
      obtain ⟨e', hMem, hId⟩ := List.mem_map.mp hIn
      obtain ⟨hMem, hp'⟩ := List.mem_filter.mp hMem
      have hLe := hLog.level_le hMem
      have hNow := hFollows.level
      have hThis := hLevel e hp
      have hOther := hLevel e' hp'
      rw [hId] at hLe
      omega
    · exact ih hLog

variable {ids : List TcpConnectionId} {newer older : List TcpEvent}

theorem suffix (h : Lawful (newer ++ older)) : Lawful older := by
  induction newer with
  | nil => exact h
  | cons e newer ih => exact ih h.2

theorem exists_of_rank {k : Nat} (h : rank log id = k) (hk : 0 < k) : ∃ e ∈ log, e.id = id ∧ e.level = k := by
  rw [rank] at h
  split at h
  · next e hFind =>
    exact ⟨e, List.mem_of_find?_eq_some hFind, by simpa using List.find?_some hFind, h⟩
  · omega

theorem claimed_before_attached {stream : TcpStream}
    (h : Lawful (newer ++ .attached id stream :: older)) : ∃ owner, .claimed id owner ∈ older := by
  obtain ⟨⟨hRank, -⟩, -⟩ := h.suffix
  obtain ⟨e, hMem, hId, hLevel⟩ := exists_of_rank hRank (by omega)
  cases e with
  | claimed id' owner =>
    cases hId
    exact ⟨owner, hMem⟩
  | _ => cases hLevel

theorem rank_unregistered (h : ∀ id ∈ ids, rank log id = 5) : rank (ids.map .unregistered ++ log) id = rank log id := by
  induction ids with
  | nil => rfl
  | cons id' ids ih =>
    obtain ⟨hHead, hTail⟩ := List.forall_mem_cons.mp h
    rw [List.map_cons, List.cons_append]
    by_cases hId : id' = id
    · subst hId
      exact rank_cons_self.trans hHead.symm
    · rw [rank_cons_ne (e := .unregistered id') hId]
      exact ih hTail

theorem unregistered (hLog : Lawful log) (h : ∀ id ∈ ids, rank log id = 5) : Lawful (ids.map .unregistered ++ log) := by
  induction ids with
  | nil => exact hLog
  | cons id' ids ih =>
    obtain ⟨hHead, hTail⟩ := List.forall_mem_cons.mp h
    exact ⟨(rank_unregistered hTail).trans hHead, ih hTail⟩

theorem owner_of_claimed (h : Lawful log) {owner : Bytes} (hMem : .claimed id owner ∈ log) :
    ∃ r stream, .opened id r stream ∈ log ∧ r.owner = owner := by
  obtain ⟨newer, older, rfl⟩ := List.append_of_mem hMem
  obtain ⟨⟨-, r, stream, hOpened, hOwner⟩, -⟩ := h.suffix
  exact ⟨r, stream, List.mem_append_right _ (List.mem_cons_of_mem _ hOpened), hOwner⟩

theorem opened_of_attached (h : Lawful log) {stream : TcpStream} (hMem : .attached id stream ∈ log) :
    ∃ r, .opened id r stream ∈ log := by
  obtain ⟨newer, older, rfl⟩ := List.append_of_mem hMem
  obtain ⟨⟨-, r, hOpened⟩, -⟩ := h.suffix
  exact ⟨r, List.mem_append_right _ (List.mem_cons_of_mem _ hOpened)⟩

end Lawful

end TcpEvent

open TcpEvent

/-! ## Who has a connection -/

def ConnState.Fits (log : List TcpEvent) (id : TcpConnectionId) : ConnState → Prop
  | .waitingForBind stream peer alloc owner => rank log id = 2 ∧ .opened id ⟨alloc, peer, owner⟩ stream ∈ log
  | .claimed stream _ _ => rank log id = 3 ∧ ∃ r, .opened id r stream ∈ log
  | .bound _ => rank log id = 5

namespace TcpCall

def concerns (id : TcpConnectionId) : TcpCall → Bool
  | .minted id' _ _ => id' = id
  | .restoring id' _ => id' = id
  | .attaching task => task.id = id
  | .relaying task => task.id = id
  | _ => false

def Fits (log : List TcpEvent) (id : TcpConnectionId) : TcpCall → Prop
  | .minted id' r stream => id' = id → rank log id = 1 ∧ .opened id r stream ∈ log
  | .restoring id' state => id' = id → rank log id = 5 ∧ ∃ alloc, state = .bound alloc
  | .attaching task => task.id = id → rank log id = 4 ∧ .attached id task.stream ∈ log
  | .relaying task => task.id = id → rank log id = 5 ∧ .attached id task.stream ∈ log
  | _ => True

variable {call : TcpCall} {log log' : List TcpEvent} {id : TcpConnectionId}

theorem concerns_of_neutral (h : call.neutral = true) (id : TcpConnectionId) : call.concerns id = false := by
  cases call <;> first
    | rfl
    | cases h

theorem holds_of_not_concerns (h : call.concerns id = false) : call.holds id = false := by
  cases call <;> first
    | rfl
    | exact h

theorem fits_of_not_concerns (h : call.concerns id = false) : call.Fits log id := by
  cases call <;> first
    | trivial
    | exact fun hId => absurd hId (of_decide_eq_false h)

theorem Fits.rank_of_concerns (h : call.Fits log id) (hId : call.concerns id = true) :
    rank log id = 1 ∨ rank log id = 4 ∨ rank log id = 5 := by
  cases call with
  | minted id' r stream => exact .inl (h (of_decide_eq_true hId)).1
  | restoring id' state | relaying task => exact .inr (.inr (h (of_decide_eq_true hId)).1)
  | attaching task => exact .inr (.inl (h (of_decide_eq_true hId)).1)
  | _ => cases hId

theorem Fits.concerns_of_not_holds (h : call.Fits log id) (hNot : call.holds id = false) (hRank : rank log id ≠ 5) :
    call.concerns id = false := by
  cases call with
  | restoring id' state => exact decide_eq_false fun hId => hRank (h hId).1
  | _ => exact hNot

theorem Fits.mono (h : call.Fits log id) (hRank : rank log' id = rank log id) (hLog : ∀ e ∈ log, e ∈ log') :
    call.Fits log' id := by
  cases call with
  | minted id' r stream | attaching task | relaying task => exact fun hId => ⟨hRank.trans (h hId).1, hLog _ (h hId).2⟩
  | restoring id' state => exact fun hId => ⟨hRank.trans (h hId).1, (h hId).2⟩
  | _ => trivial

end TcpCall

namespace ConnState.Fits

variable {state : ConnState} {log log' : List TcpEvent} {id : TcpConnectionId}

theorem mono (h : state.Fits log id) (hRank : rank log' id = rank log id) (hLog : ∀ e ∈ log, e ∈ log') :
    state.Fits log' id := by
  cases state with
  | waitingForBind stream peer alloc owner => exact ⟨hRank.trans h.1, hLog _ h.2⟩
  | claimed stream peer alloc =>
    obtain ⟨hOld, r, hOpened⟩ := h
    exact ⟨hRank.trans hOld, r, hLog _ hOpened⟩
  | bound alloc => exact hRank.trans h

theorem rank_cases (h : state.Fits log id) : rank log id = 2 ∨ rank log id = 3 ∨ rank log id = 5 := by
  cases state with
  | waitingForBind stream peer alloc owner => exact .inl h.1
  | claimed stream peer alloc => exact .inr (.inl h.1)
  | bound alloc => exact .inr (.inr h)

theorem rank_of_not_bound (h : state.Fits log id) (hNot : ∀ alloc, state ≠ .bound alloc) :
    rank log id = 2 ∨ rank log id = 3 := by
  cases state with
  | waitingForBind stream peer alloc owner => exact .inl h.1
  | claimed stream peer alloc => exact .inr h.1
  | bound alloc => exact absurd rfl (hNot alloc)

end ConnState.Fits

/-- What there is of `id`: its entry, and the calls that have it. -/
structure Custody (log : List TcpEvent) (entry : Option ConnState) (calls : Multiset TcpCall)
    (id : TcpConnectionId) : Prop where
  entryFits : ∀ state, entry = some state → state.Fits log id
  callsFit : ∀ call ∈ calls, call.Fits log id
  once : calls.countP (fun call => call.holds id) ≤ 1
  relayed : ∀ task, .relaying task ∈ calls → task.id = id →
    (∃ alloc, entry = some (.bound alloc)) ∨ (∃ state, .restoring id state ∈ calls) ∨ .unregistered id ∈ log

namespace Custody

variable {log log' : List TcpEvent} {entry entry' : Option ConnState} {call call' : TcpCall} {rest : Multiset TcpCall}
  {id : TcpConnectionId}

theorem clear {calls : Multiset TcpCall} (h : Custody log entry calls id)
    (hRank : rank log id = 0 ∨ rank log id = 2 ∨ rank log id = 3) : ∀ c ∈ calls, c.concerns id = false := by
  intro c hc
  cases hId : c.concerns id with
  | false => rfl
  | true =>
    have := (h.callsFit c hc).rank_of_concerns hId
    omega

section

variable (h : Custody log entry (call ::ₘ rest) id)
include h

theorem rest_not_holds (hCall : call.holds id = true) : ∀ c ∈ rest, c.holds id = false := by
  intro c hc
  have hOnce := h.once
  rw [countP_cons, if_pos hCall] at hOnce
  have hNone : rest.countP (fun call => call.holds id) = 0 := by omega
  simpa using countP_eq_zero.mp hNone c hc

theorem rest_clear (hCall : call.holds id = true)
    (hRank : rank log id ≠ 5) : ∀ c ∈ rest, c.concerns id = false := fun c hc =>
  (h.callsFit c (mem_cons_of_mem hc)).concerns_of_not_holds (h.rest_not_holds hCall c hc) hRank

theorem act (hRank : rank log' id = rank log id)
    (hLog : ∀ e ∈ log, e ∈ log') (hEntry : ∀ state, entry' = some state → state.Fits log' id)
    (hCall : call'.Fits log' id) (hHolds : call'.holds id = true → call.holds id = true)
    (hRelayed : ∀ task, .relaying task ∈ call' ::ₘ rest → task.id = id →
      (∃ alloc, entry' = some (.bound alloc)) ∨ (∃ state, .restoring id state ∈ call' ::ₘ rest) ∨
        .unregistered id ∈ log') : Custody log' entry' (call' ::ₘ rest) id := by
  refine ⟨hEntry, ?_, ?_, hRelayed⟩
  · rw [forall_mem_cons]
    exact ⟨hCall, fun c hc => (h.callsFit c (mem_cons_of_mem hc)).mono hRank hLog⟩
  have hOnce := h.once
  rw [countP_cons] at hOnce ⊢
  split
  · next hNow =>
    rw [if_pos (hHolds hNow)] at hOnce
    exact hOnce
  · exact (Nat.le_add_right _ _).trans hOnce

theorem elsewhere (hRank : rank log' id = rank log id)
    (hLog : ∀ e ∈ log, e ∈ log') (hCall : call.concerns id = false) (hCall' : call'.concerns id = false) :
    Custody log' entry (call' ::ₘ rest) id := by
  refine h.act hRank hLog (fun state hEntry => (h.entryFits state hEntry).mono hRank hLog)
    (fits_of_not_concerns hCall') (by simp [holds_of_not_concerns hCall']) fun task hTask hId => ?_
  rcases mem_cons.mp hTask with rfl | hTask
  · simp [concerns, hId] at hCall'
  rcases h.relayed task (mem_cons_of_mem hTask) hId with hBound | ⟨state, hRestoring⟩ | hGone
  · exact .inl hBound
  · rcases mem_cons.mp hRestoring with rfl | hRestoring
    · simp [concerns] at hCall
    · exact .inr (.inl ⟨state, mem_cons_of_mem hRestoring⟩)
  · exact .inr (.inr (hLog _ hGone))

end

theorem of_clear (hRest : ∀ c ∈ rest, c.concerns id = false) (hCall : call'.Fits log' id)
    (hEntry : ∀ state, entry' = some state → state.Fits log' id)
    (hRelayed : ∀ task, call' = .relaying task → ∃ alloc, entry' = some (.bound alloc)) :
    Custody log' entry' (call' ::ₘ rest) id := by
  constructor
  · exact hEntry
  · rw [forall_mem_cons]
    exact ⟨hCall, fun c hc => fits_of_not_concerns (hRest c hc)⟩
  · have hNone : rest.countP (fun call => call.holds id) = 0 :=
      countP_eq_zero.mpr fun c hc => by simp [holds_of_not_concerns (hRest c hc)]
    rw [countP_cons, hNone]
    split <;> omega
  · intro task hTask hId
    rcases mem_cons.mp hTask with hEq | hTask
    · exact .inl (hRelayed task hEq.symm)
    · have := hRest _ hTask
      simp [concerns, hId] at this

theorem finish {task : RelayTask} (h : Custody log entry (.relaying task ::ₘ rest) task.id)
    (hCall' : call'.neutral = true) : Custody log none (call' ::ₘ rest) task.id := by
  have hRest := h.rest_not_holds (decide_eq_true rfl)
  refine h.act rfl (fun _ hIn => hIn) nofun
    (fits_of_not_concerns (concerns_of_neutral hCall' task.id)) (fun _ => decide_eq_true rfl)
    fun other hOther hId => ?_
  rcases mem_cons.mp hOther with rfl | hOther
  · cases hCall'
  · have hHolds := hRest _ hOther
    simp [holds, hId] at hHolds

theorem lift {alloc : AllocationId} (h : Custody log (some (.bound alloc)) (call ::ₘ rest) id) :
    Custody log none (.restoring id (.bound alloc) ::ₘ rest) id :=
  h.act rfl (fun _ hIn => hIn) nofun (fun _ => ⟨h.entryFits _ rfl, alloc, rfl⟩) nofun
    fun _ _ _ => .inr (.inl ⟨_, mem_cons_self _ _⟩)

theorem putBack {state : ConnState} (h : Custody log entry (.restoring id state ::ₘ rest) id)
    (hCall' : call'.neutral = true) : Custody log (some state) (call' ::ₘ rest) id := by
  have hOff := concerns_of_neutral hCall' id
  obtain ⟨hRank, alloc, rfl⟩ := h.callsFit _ (mem_cons_self _ _) rfl
  refine h.act rfl (fun _ hIn => hIn) (fun other hOther => ?_) (fits_of_not_concerns hOff)
    (by simp [holds_of_not_concerns hOff]) fun _ _ _ => .inl ⟨alloc, rfl⟩
  cases hOther
  exact hRank

theorem unregister (h : Custody log entry (call ::ₘ rest) id) (hRank : rank log' id = rank log id)
    (hLog : ∀ e ∈ log, e ∈ log') (hEntry : entry' = entry ∨ entry' = none)
    (hGone : entry' = entry ∨ ∀ alloc, entry = some (.bound alloc) → .unregistered id ∈ log') :
    Custody log' entry' (call ::ₘ rest) id := by
  refine h.act hRank hLog (fun state hState => ?_) ((h.callsFit _ (mem_cons_self _ _)).mono hRank hLog)
    (fun hHolds => hHolds) fun task hTask hId => ?_
  · rcases hEntry with hEntry | hEntry
    · exact (h.entryFits state (hEntry ▸ hState)).mono hRank hLog
    · rw [hEntry] at hState
      cases hState
  · rcases h.relayed task hTask hId with ⟨alloc, hBound⟩ | hRestoring | hUnregistered
    · rcases hGone with hSame | hGone
      · exact .inl ⟨alloc, hSame.trans hBound⟩
      · exact .inr (.inr (hGone alloc hBound))
    · exact .inr (.inl hRestoring)
    · exact .inr (.inr (hLog _ hUnregistered))

end Custody

/-! ## The whole relay -/

structure TcpWorld.Tracked (s : TcpWorld) (calls : Multiset TcpCall) : Prop where
  lawful : Lawful s.log
  counter : s.manager.counter = UInt32.ofNat (s.minted + 1)
  ids : ∀ id, rank s.log id ≠ 0 → id.toNat ≤ s.minted
  custody : ∀ id, Custody s.log (s.manager.conns.get id) calls id

namespace TcpWorld.Tracked

variable {s : TcpWorld} {call call' : TcpCall} {rest : Multiset TcpCall} {m' : TcpRelayManager} {id : TcpConnectionId}
  {r : PeerRequest} {stream : TcpStream}

theorem record (h : s.Tracked (call ::ₘ rest)) {e : TcpEvent} (hFollows : e.Follows s.log)
    (hOld : rank s.log e.id ≠ 0) (hCounter : m'.counter = s.manager.counter)
    (hGet : ∀ id, id ≠ e.id → m'.conns.get id = s.manager.conns.get id)
    (hCall : ∀ id, id ≠ e.id → call.concerns id = false) (hCall' : ∀ id, id ≠ e.id → call'.concerns id = false)
    (hOwn : Custody (e :: s.log) (m'.conns.get e.id) (call' ::ₘ rest) e.id) :
    TcpWorld.Tracked { s with manager := m', log := e :: s.log } (call' ::ₘ rest) := by
  constructor
  · exact ⟨hFollows, h.lawful⟩
  · exact hCounter.trans h.counter
  · intro id hRank
    by_cases hId : id = e.id
    · rw [hId]
      exact h.ids e.id hOld
    · exact h.ids id (rank_cons_ne (Ne.symm hId) ▸ hRank)
  · intro id
    by_cases hId : id = e.id
    · rw [hId]
      exact hOwn
    have hElse := (h.custody id).elsewhere (rank_cons_ne (Ne.symm hId)) (fun _ => List.mem_cons_of_mem e) (hCall id hId)
      (hCall' id hId)
    rw [← hGet id hId] at hElse
    exact hElse

theorem unrecorded (h : s.Tracked (call ::ₘ rest)) (id : TcpConnectionId) (hCounter : m'.counter = s.manager.counter)
    (hGet : ∀ id', id' ≠ id → m'.conns.get id' = s.manager.conns.get id')
    (hCall : ∀ id', id' ≠ id → call.concerns id' = false) (hCall' : ∀ id', id' ≠ id → call'.concerns id' = false)
    (hOwn : Custody s.log (m'.conns.get id) (call' ::ₘ rest) id) :
    TcpWorld.Tracked { s with manager := m' } (call' ::ₘ rest) := by
  refine ⟨h.lawful, hCounter.trans h.counter, h.ids, fun id' => ?_⟩
  by_cases hId : id' = id
  · rw [hId]
    exact hOwn
  have hElse := (h.custody id').elsewhere rfl (fun _ hIn => hIn) (hCall id' hId) (hCall' id' hId)
  rw [← hGet id' hId] at hElse
  exact hElse

theorem mint (h : s.Tracked (.connected r stream ::ₘ rest)) (hFew : s.minted + 1 < 2 ^ 32) : TcpWorld.Tracked
      { manager := s.manager.nextId.2, minted := s.minted + 1, log := .opened s.manager.counter r stream :: s.log }
      (.minted s.manager.counter r stream ::ₘ rest) := by
  have hNat : s.manager.counter.toNat = s.minted + 1 := by
    rw [h.counter, UInt32.toNat_ofNat']
    exact Nat.mod_eq_of_lt hFew
  have hNew : rank s.log s.manager.counter = 0 := by
    by_contra hRank
    have := h.ids _ hRank
    omega
  have hOwn := h.custody s.manager.counter
  constructor
  · exact ⟨hNew, h.lawful⟩
  · show s.manager.counter + 1 = _
    rw [h.counter, UInt32.ofNat_add (s.minted + 1) 1]
    rfl
  · intro id hRank
    by_cases hId : s.manager.counter = id
    · rw [← hId, hNat]
    · rw [rank_cons_ne (e := .opened s.manager.counter r stream) hId] at hRank
      exact (h.ids id hRank).trans (Nat.le_succ _)
  · intro id
    by_cases hId : s.manager.counter = id
    · subst hId
      refine .of_clear (fun c hc => hOwn.clear (.inl hNew) c (mem_cons_of_mem hc)) ?_ ?_ nofun
      · exact fun _ => ⟨rank_cons_self, List.mem_cons_self⟩
      intro state hGet
      have := (hOwn.entryFits state hGet).rank_cases
      omega
    · refine (h.custody id).elsewhere (rank_cons_ne hId) (fun _ => List.mem_cons_of_mem _) rfl ?_
      exact decide_eq_false hId

theorem enter (h : s.Tracked (.minted id r stream ::ₘ rest)) : TcpWorld.Tracked { s with
        manager := s.manager.insertConn id (.waitingForBind stream r.peer r.alloc r.owner)
        log := .entered id r :: s.log } (.registered id r ::ₘ rest) := by
  have hOwn := h.custody id
  obtain ⟨hRank, hOpened⟩ := hOwn.callsFit _ (mem_cons_self _ _) rfl
  refine h.record (e := .entered id r) hRank (by simp [TcpEvent.id, hRank]) rfl
    (fun id' hId => get_insert_ne _ _ hId) (fun id' hId => decide_eq_false (Ne.symm hId)) (fun _ _ => rfl) ?_
  refine .of_clear (hOwn.rest_clear (decide_eq_true rfl) (by omega)) trivial (fun state hGet => ?_) nofun
  have hState := (get_insert_self s.manager.conns id _).symm.trans hGet
  cases hState
  exact ⟨rank_cons_self, List.mem_cons_of_mem _ hOpened⟩

variable {ids : List TcpConnectionId} {calls : Multiset TcpCall} {alloc : AllocationId} {peer : SocketAddr}
  {task : RelayTask}

theorem claim {owner : Bytes} (h : s.Tracked (.claim id owner ::ₘ rest))
    (hGet : s.manager.conns.get id = some (.waitingForBind stream peer alloc owner)) :
    TcpWorld.Tracked { s with
        manager := (s.manager.removeConn id).insertConn id (.claimed stream peer alloc)
        log := .claimed id owner :: s.log } (.done ::ₘ rest) := by
  have hOwn := h.custody id
  obtain ⟨hRank, hOpened⟩ := hOwn.entryFits _ hGet
  refine h.record (e := .claimed id owner) ⟨hRank, _, _, hOpened, rfl⟩ (by simp [TcpEvent.id, hRank]) rfl
    (fun id' (hId : id' ≠ id) => ?_) (fun _ _ => rfl) (fun _ _ => rfl) ?_
  · rw [conns_insertConn, get_insert_ne _ _ hId]
    exact get_remove_ne _ hId
  refine .of_clear (fun c hc => hOwn.clear (.inr (.inl hRank)) c (mem_cons_of_mem hc)) trivial
    (fun state hState => ?_) nofun
  have hEq := (get_insert_self _ id _).symm.trans hState
  cases hEq
  exact ⟨rank_cons_self, _, List.mem_cons_of_mem _ hOpened⟩

theorem take (h : s.Tracked (.attach id ::ₘ rest)) (hGet : s.manager.conns.get id = some (.claimed stream peer alloc)) :
    TcpWorld.Tracked { s with manager := s.manager.removeConn id, log := .attached id stream :: s.log }
      (.attaching ⟨id, stream, peer, alloc⟩ ::ₘ rest) := by
  have hOwn := h.custody id
  obtain ⟨hRank, hOpened⟩ := hOwn.entryFits _ hGet
  refine h.record (e := .attached id stream) ⟨hRank, hOpened⟩ (by simp [TcpEvent.id, hRank]) rfl
    (fun id' hId => get_remove_ne _ hId) (fun _ _ => rfl) (fun id' hId => decide_eq_false (Ne.symm hId)) ?_
  refine .of_clear (fun c hc => hOwn.clear (.inr (.inr hRank)) c (mem_cons_of_mem hc)) ?_
    (fun state hState => ?_) nofun
  · exact fun _ => ⟨rank_cons_self, List.mem_cons_self⟩
  · cases (get_remove_self s.manager.conns id).symm.trans hState

theorem bind (h : s.Tracked (.attaching task ::ₘ rest)) : TcpWorld.Tracked { s with
        manager := s.manager.insertConn task.id (.bound task.alloc)
        log := .relayed task.id :: s.log } (.relaying task ::ₘ rest) := by
  have hOwn := h.custody task.id
  obtain ⟨hRank, hAttached⟩ := hOwn.callsFit _ (mem_cons_self _ _) rfl
  have hOther : ∀ id', id' ≠ task.id → decide (task.id = id') = false := fun id' hId => decide_eq_false (Ne.symm hId)
  have hSelf : (s.manager.insertConn task.id (.bound task.alloc)).conns.get task.id = some (.bound task.alloc) :=
    get_insert_self ..
  refine h.record (e := .relayed task.id) hRank (by simp [TcpEvent.id, hRank]) rfl
    (fun id' hId => get_insert_ne _ _ hId) hOther hOther ?_
  refine .of_clear (hOwn.rest_clear (decide_eq_true rfl) (by omega)) ?_ (fun state hState => ?_)
    (fun _ _ => ⟨_, hSelf⟩)
  · exact fun _ => ⟨rank_cons_self, List.mem_cons_of_mem _ hAttached⟩
  · cases hSelf.symm.trans hState
    exact rank_cons_self

theorem mem_unregister :
    .unregistered id ∈ s.unregister ids ↔ id ∈ ids ∧ ∃ alloc, s.manager.conns.get id = some (.bound alloc) := by
  simp only [unregister, List.mem_map, List.mem_filter, TcpEvent.unregistered.injEq]
  constructor
  · rintro ⟨id', ⟨hIn, hBound⟩, rfl⟩
    refine ⟨hIn, ?_⟩
    split at hBound
    · next alloc hGet => exact ⟨alloc, hGet⟩
    · cases hBound
  · rintro ⟨hIn, alloc, hGet⟩
    exact ⟨id, ⟨hIn, by rw [hGet]⟩, rfl⟩

theorem rank_bound {l : List TcpConnectionId} (h : s.Tracked calls) : ∀ id ∈ l.filter (fun id =>
    match s.manager.conns.get id with
    | some (.bound _) => true
    | _ => false), rank s.log id = 5 := by
  intro id hIn
  obtain ⟨-, alloc, hGet⟩ := mem_unregister.mp (List.mem_map_of_mem (f := TcpEvent.unregistered) hIn)
  exact (h.custody id).entryFits _ hGet

theorem clean (h : s.Tracked (.cleaning ids ::ₘ rest)) :
    TcpWorld.Tracked { s with manager := s.manager.removeAll ids, log := s.unregister ids ++ s.log }
      (.done ::ₘ rest) := by
  have hRelayed := h.rank_bound (l := ids)
  have hRank : ∀ id, rank (s.unregister ids ++ s.log) id = rank s.log id := fun id => Lawful.rank_unregistered hRelayed
  refine ⟨h.lawful.unregistered hRelayed, h.counter, fun id => hRank id ▸ h.ids id, fun id => ?_⟩
  have hCustody : Custody s.log (s.manager.conns.get id) (.done ::ₘ rest) id :=
    (h.custody id).elsewhere rfl (fun _ hIn => hIn) rfl rfl
  have hGet : (s.manager.removeAll ids).conns.get id = if id ∈ ids then none else s.manager.conns.get id :=
    get_foldl_remove ..
  refine hCustody.unregister (hRank id) (fun _ => List.mem_append_right _) ?_ ?_
  · show (s.manager.removeAll ids).conns.get id = _ ∨ (s.manager.removeAll ids).conns.get id = _
    rw [hGet]
    split
    · exact .inr rfl
    · exact .inl rfl
  · show (s.manager.removeAll ids).conns.get id = _ ∨ _
    rw [hGet]
    split
    · next hIn => exact .inr fun alloc hBound => List.mem_append_left _ (mem_unregister.mpr ⟨hIn, alloc, hBound⟩)
    · exact .inl rfl

theorem step {s' : TcpWorld} (h : s.Tracked (call ::ₘ rest))
    (hFew : ∀ r stream, call = .connected r stream → s.minted + 1 < 2 ^ 32) (hStep : TcpStep s call s' call') :
    s'.Tracked (call' ::ₘ rest) := by
  cases hStep with
  | silent hCall hCall' hSame =>
    refine h.unrecorded 0 hSame.counter (fun id _ => hSame.get id)
      (fun id _ => concerns_of_neutral hCall id) (fun id _ => concerns_of_neutral hCall' id) ?_
    rw [hSame.get]
    exact (h.custody 0).elsewhere rfl (fun _ hIn => hIn) (concerns_of_neutral hCall 0)
      (concerns_of_neutral hCall' 0)
  | mint r stream => exact h.mint (hFew r stream rfl)
  | enter id r stream => exact h.enter
  | claim hGet => exact h.claim hGet
  | @drop _ _ id state m' hCall hCall' hGet hNot hConns hCounter _ =>
    have hOwn := h.custody id
    have hRank := (hOwn.entryFits state hGet).rank_of_not_bound hNot
    refine h.unrecorded id hCounter (fun id' hId => ?_) (fun id' _ => concerns_of_neutral hCall id')
      (fun id' _ => concerns_of_neutral hCall' id') ?_
    · rw [hConns, get_remove_ne _ hId]
    rw [hConns, get_remove_self]
    refine .of_clear (fun c hc => hOwn.clear (.inr hRank) c (mem_cons_of_mem hc))
      (fits_of_not_concerns (concerns_of_neutral hCall' id)) nofun ?_
    rintro task rfl
    cases hCall'
  | take hGet => exact h.take hGet
  | bind task => exact h.bind
  | finish task =>
    refine h.unrecorded task.id rfl (fun id' hId => get_remove_ne _ hId)
      (fun id' hId => decide_eq_false (Ne.symm hId)) (fun _ _ => rfl) ?_
    rw [conns_removeConn, get_remove_self]
    exact (h.custody task.id).finish rfl
  | @lift id alloc hGet =>
    have hOwn := h.custody id
    rw [hGet] at hOwn
    refine h.unrecorded id rfl (fun id' hId => get_remove_ne _ hId) (fun _ _ => rfl)
      (fun id' hId => decide_eq_false (Ne.symm hId)) ?_
    rw [conns_removeConn, get_remove_self]
    exact hOwn.lift
  | putBack id state =>
    refine h.unrecorded id rfl (fun id' hId => get_insert_ne _ _ hId)
      (fun id' hId => decide_eq_false (Ne.symm hId)) (fun _ _ => rfl) ?_
    rw [conns_insertConn, get_insert_self]
    exact (h.custody id).putBack rfl
  | clean ids => exact h.clean

theorem new (config : TcpRelayConfig) : (TcpWorld.new config).Tracked 0 := by
  refine ⟨trivial, rfl, fun id hRank => absurd rfl hRank, fun id => ⟨nofun, fun c hc => ?_, ?_, fun task hTask => ?_⟩⟩
  · cases notMem_zero c hc
  · exact Nat.zero_le 1
  · cases notMem_zero _ hTask

theorem start (h : s.Tracked calls) (hCall : call.neutral = true) : s.Tracked (call ::ₘ calls) := by
  refine ⟨h.lawful, h.counter, h.ids, fun id => ?_⟩
  have hOwn := h.custody id
  have hOff := concerns_of_neutral hCall id
  constructor
  · exact hOwn.entryFits
  · rw [forall_mem_cons]
    exact ⟨fits_of_not_concerns hOff, hOwn.callsFit⟩
  · rw [countP_cons_of_neg _ (by simp [holds_of_not_concerns hOff])]
    exact hOwn.once
  · intro task hTask hId
    rcases mem_cons.mp hTask with rfl | hTask
    · cases hCall
    rcases hOwn.relayed task hTask hId with hBound | ⟨state, hRestoring⟩ | hGone
    · exact .inl hBound
    · exact .inr (.inl ⟨state, mem_cons_of_mem hRestoring⟩)
    · exact .inr (.inr hGone)

theorem entry_of_relaying (h : s.Tracked calls) (hTask : .relaying task ∈ calls) :
    s.manager.conns.get task.id = none ∨ ∃ alloc, s.manager.conns.get task.id = some (.bound alloc) := by
  obtain ⟨hRank, -⟩ := (h.custody task.id).callsFit _ hTask rfl
  cases hGet : s.manager.conns.get task.id with
  | none => exact .inl rfl
  | some state =>
    have hFits := (h.custody task.id).entryFits state hGet
    cases state with
    | waitingForBind stream peer alloc owner | claimed stream peer alloc =>
      have := hFits.1
      omega
    | bound alloc => exact .inr ⟨alloc, rfl⟩

end TcpWorld.Tracked

/-! ## Bound by the owner, and once -/

/-- Fewer than `2 ^ 32` ids are given out. -/
def fewIds (s : TcpWorld) : Label TcpCall DialOutcome → Bool
  | .advance (.connected _ _) _ => s.minted + 1 < 2 ^ 32
  | _ => true

structure TcpWorld.BoundOnce (s : TcpWorld) (calls : Multiset TcpCall) : Prop where
  openings : ((s.log.filter TcpEvent.isOpening).map TcpEvent.id).Nodup
  claims : ((s.log.filter TcpEvent.isClaim).map TcpEvent.id).Nodup
  attaches : ((s.log.filter TcpEvent.isAttach).map TcpEvent.id).Nodup
  order : ∀ newer older id stream, s.log = newer ++ .attached id stream :: older → ∃ owner, .claimed id owner ∈ older
  owner : ∀ id owner, .claimed id owner ∈ s.log → ∃ r stream, .opened id r stream ∈ s.log ∧ r.owner = owner
  stream : ∀ id stream, .attached id stream ∈ s.log → ∃ r, .opened id r stream ∈ s.log
  handed : ∀ task, .relaying task ∈ calls → .attached task.id task.stream ∈ s.log
  refused : ∀ id owner e, (s.manager.claim id owner).1 = .error e →
    (∀ id', (s.manager.claim id owner).2.conns.get id' = s.manager.conns.get id') ∧
      (s.manager.claim id owner).2.allocPeers = s.manager.allocPeers
  relayed : ∀ task, .relaying task ∈ calls →
    (∃ alloc, s.manager.conns.get task.id = some (.bound alloc)) ∨ (∃ state, .restoring task.id state ∈ calls) ∨
      .unregistered task.id ∈ s.log
  idle : ∀ task, .relaying task ∈ calls →
    (∀ id', (s.manager.idleTimeout task.id).conns.get id' = s.manager.conns.get id') ∧
      (s.manager.idleTimeout task.id).allocPeers = s.manager.allocPeers
  release : ∀ task, .relaying task ∈ calls →
    (s.releaseStep task.id).1.manager.allocPeers = s.manager.allocPeers ∧
      (s.releaseStep task.id).2 = (s.manager.conns.get task.id).elim .done (.restoring task.id)

theorem TcpWorld.Tracked.boundOnce {s : TcpWorld} {calls : Multiset TcpCall} (h : s.Tracked calls) :
    s.BoundOnce calls := by
  constructor
  · refine h.lawful.nodup_ids (by omega) (k := 1) fun e hp => ?_
    cases e <;> first
      | rfl
      | cases hp
  · refine h.lawful.nodup_ids (by omega) (k := 3) fun e hp => ?_
    cases e <;> first
      | rfl
      | cases hp
  · refine h.lawful.nodup_ids (by omega) (k := 4) fun e hp => ?_
    cases e <;> first
      | rfl
      | cases hp
  · intro newer older id stream hLog
    have hLawful := h.lawful
    rw [hLog] at hLawful
    exact hLawful.claimed_before_attached
  · exact fun id owner hMem => h.lawful.owner_of_claimed hMem
  · exact fun id stream hMem => h.lawful.opened_of_attached hMem
  · exact fun task hTask => ((h.custody task.id).callsFit _ hTask rfl).2
  · intro id owner e hError
    rcases s.manager.claim_cases id owner with ⟨_, -, hConns, hPeers, -⟩ | ⟨stream, p, a, -, hClaim⟩
    · exact ⟨hConns, hPeers⟩
    · rw [hClaim] at hError
      cases hError
  · exact fun task hTask => (h.custody task.id).relayed task hTask rfl
  · intro task hTask
    rw [idleTimeout]
    rcases h.entry_of_relaying hTask with hGet | ⟨alloc, hGet⟩
    · rw [hGet]
      exact ⟨(TcpWorld.removeConn_same hGet).get, rfl⟩
    · rw [hGet]
      exact ⟨get_putBack hGet, rfl⟩
  · intro task hTask
    rw [TcpWorld.releaseStep]
    rcases h.entry_of_relaying hTask with hGet | ⟨alloc, hGet⟩
    all_goals
      rw [hGet]
      exact ⟨rfl, rfl⟩

theorem bound_once (config : TcpRelayConfig) {s : TcpWorld} {calls : Multiset TcpCall}
    (h : tcpMachine.Reaches (fun s _ l => fewIds s l = true) (.new config, 0) (s, calls)) : s.BoundOnce calls := by
  refine TcpWorld.Tracked.boundOnce (h.invariant TcpWorld.Tracked ?_ ?_ (.new config))
  · intro s calls call s' hTracked _ hStart
    obtain ⟨hCall, rfl⟩ := TcpWorld.neutral_of_start hStart
    exact hTracked.start hCall
  intro s rest call dial s' call' hTracked hOk hNext
  refine hTracked.step ?_ (TcpWorld.step_of_advance hNext)
  rintro r stream rfl
  exact of_decide_eq_true hOk

theorem bound_once_relayed : ∃ (s : TcpWorld) (calls : Multiset TcpCall),
    TcpEvent.attached 1 7 ∈ s.log ∧ s.BoundOnce calls := by
  obtain ⟨s, calls, hReaches, hSeen⟩ := tcpMachine.exists_reaches_of_exec
    (fun s _ l => fewIds s l = true) (.new ⟨1, 2⟩, []) TcpScenario.relayed
    (fun s _ => TcpEvent.attached 1 7 ∈ s.log) (by decide +kernel)
  exact ⟨s, calls, hSeen, bound_once ⟨1, 2⟩ hReaches⟩

end Turna.Relay
