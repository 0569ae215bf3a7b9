import Turna.Relay.Datapath

/-! # What a Refresh does

A Refresh that is granted a lifetime acts on the allocation at its source or, if there is none, on the
one that its ticket names, which moves to the source first.
-/

namespace Turna.Relay
open Lib Net Crypto Stun Auth Session Transport Processor HashMap Attribute

/-! ## Success and refusal -/

theorem isSuccess_of_type {msg : StunMessage} {data : Bytes} (hLength : headerSize ≤ data.length)
    (hType : data.take 2 = msg.typeBytes) : isSuccess data = (msg.cls == .successResponse) := by
  obtain ⟨rest, hData⟩ : ∃ rest, data = msg.typeBytes ++ rest := ⟨data.drop 2, by rw [← hType, List.take_append_drop]⟩
  have hBytes : data.byteAt 0 = (encodeMessageType msg.method msg.cls >>> 8).toUInt8 ∧
      data.byteAt 1 = (encodeMessageType msg.method msg.cls).toUInt8 := by
    rw [hData]
    exact ⟨rfl, rfl⟩
  rw [isSuccess, hBytes.1, hBytes.2, show decide (20 ≤ data.length) = true from decide_eq_true hLength, Bool.true_and]
  generalize msg.method = method, msg.cls = cls
  cases method <;> cases cls <;> decide

def Refusal (actions : List Action) : Prop := ∀ data target, .send data target ∈ actions → isSuccess data = false

theorem Refusal.successReply {actions : List Action} (h : Refusal actions) (src : SocketAddr) :
    successReply src actions = none := by
  rw [Processor.successReply, List.findSome?_eq_none_iff]
  intro action hMem
  cases action with
  | send data target => simp [h data target hMem]
  | _ => rfl

theorem refusal_none : Refusal [.none] := by
  intro data target hMem
  cases List.mem_singleton.mp hMem

theorem refusal_encode {msg : StunMessage} (hCls : msg.cls = .errorResponse)
    (hPlain : msg.attributes.all isPlain = true) (room : Nat) (dst : SocketAddr) :
    Refusal (encodeOrDrop (msg.encode room) dst) := by
  cases hEncode : msg.encode room with
  | error e => exact refusal_none
  | ok encoded =>
    intro data target hMem
    cases List.mem_singleton.mp hMem
    obtain ⟨hLength, hType⟩ := StunMessage.take_encode hPlain hEncode
    rw [isSuccess_of_type (by omega) hType, hCls]
    rfl

section Errors

variable (env : Surroundings) (msg : StunMessage) (dst : SocketAddr)

theorem refusal_encodeError (code : UInt16) (reason : String) : Refusal (encodeError msg dst code reason) :=
  refusal_encode rfl rfl 512 dst

theorem refusal_encodeAuthChallenge : Refusal (encodeAuthChallenge env msg dst) := by
  rw [encodeAuthChallenge]
  split_ifs
  · exact refusal_none
  cases env.auth.base.oauthIdentity with
  | none | some identity => exact refusal_encode rfl rfl 512 dst

end Errors

/-! ## Sizes -/

theorem length_encodeXorAddress (addr : SocketAddr) (tid : TransactionId) : (encodeXorAddress addr tid).length ≤ 20 := by
  cases addr with
  | v4 ip port => simp [encodeXorAddress, Bytes.xor, Ipv4Addr.octets, cookieBytes]
  | v6 ip port flowinfo scopeId => simp [encodeXorAddress, Bytes.xor, ipv6Octets, Ipv6Addr.segments, cookieBytes]

theorem size_xorMappedAddress (tid : TransactionId) (addr : SocketAddr) : (xorMappedAddress addr).size tid ≤ 27 := by
  have hLength := length_encodeXorAddress addr tid
  have hPadded := Bytes.padded_le (encodeXorAddress addr tid).length
  have hSize : (xorMappedAddress addr).size tid = 4 + Bytes.padded (encodeXorAddress addr tid).length := rfl
  omega

theorem size_mobilityTicket (tid : TransactionId) (ticket : Bytes) :
    (mobilityTicket ticket).size tid ≤ ticket.length + 7 := by
  have hPadded := Bytes.padded_le ticket.length
  have hSize : (mobilityTicket ticket).size tid = 4 + Bytes.padded ticket.length := rfl
  omega

section Signed

variable {env : Surroundings} {msg resp : StunMessage} {key data : Bytes}

theorem trailerSize_le (req : StunMessage) : trailerSize req ≤ 44 := by
  rw [trailerSize]
  split_ifs <;> omega

theorem signedReply_ok (hPlain : resp.attributes.all isPlain = true)
    (hSize : attrsSize resp.transactionId resp.attributes ≤ 960) :
    ∃ data, signedReply env msg key resp = .ok data := by
  have hTrailer := trailerSize_le msg
  refine encodeWithIntegrityAuto_ok hPlain ?_ ?_
  · rw [StunMessage.attrScratch]
    omega
  · rw [headerSize]
    omega

theorem signedReply_spec (hPlain : resp.attributes.all isPlain = true)
    (h : signedReply env msg key resp = .ok data) :
    data.length ≤ 1024 ∧ isSuccess data = (resp.cls == .successResponse) := by
  obtain ⟨hHeader, hRoom, hType⟩ := encodeWithIntegrityAuto_spec hPlain h
  exact ⟨hRoom, isSuccess_of_type hHeader hType⟩

theorem successReply_send {src : SocketAddr} (hData : isSuccess data = true) (rest : List Action) :
    successReply src (.send data src :: rest) = some data := by
  simp [Processor.successReply, hData]

end Signed

/-! ## What a Refresh does -/

namespace Processor

variable {p : Processor} {env : Surroundings} {msg : StunMessage} {raw key : Bytes} {src : SocketAddr}
  {lifetime : UInt32}

def refreshTarget (p : Processor) (env : Surroundings) (msg : StunMessage) (src : SocketAddr) : Option SocketAddr :=
  match p.store.get src with
  | some _ => some src
  | none =>
    match p.settings.migration, msg.getMobilityTicket with
    | some mgr, some ticket => if ticket = [] then none else (p.ticketTarget env ticket mgr).map Prod.fst
    | _, _ => none

variable {oldAddr : SocketAddr} {a : Allocation}

theorem refreshTarget_some (hGet : p.store.get src = some a) : p.refreshTarget env msg src = some src := by
  rw [refreshTarget, hGet]

theorem ticketTarget_spec {ticket : Bytes} {mgr : MigrationManager} {allocId : String}
    {epoch : UInt64} (h : p.ticketTarget env ticket mgr = some (oldAddr, allocId, epoch)) :
    mgr.verifyTicket env.authEnv.crypto env.unixSecs ticket = some (allocId, epoch) ∧
      p.store.getById allocId = some oldAddr ∧ ∃ a, p.store.get oldAddr = some a ∧ a.migrationEpoch = epoch := by
  rw [ticketTarget] at h
  split at h
  · cases h
  next hTicket =>
  split at h
  · cases h
  next hId =>
  split_ifs at h with hEpoch
  cases h
  obtain ⟨a, hGet, hEq⟩ := Option.map_eq_some_iff.mp hEpoch
  exact ⟨hTicket, hId, a, hGet, hEq⟩

theorem refreshAt_none (hGet : p.store.get src = none) :
    p.refreshAt env msg src key lifetime = (encodeError msg src 437 "Allocation Mismatch", p) := by
  rw [refreshAt, refresh_none env.order env.clock hGet]

theorem refreshAt_some (hGet : p.store.get src = some a) :
    ∃ data, isSuccess data = true ∧ p.refreshAt env msg src key lifetime =
      (.send data src :: (if lifetime = 0 then [.closeRelay a.relayAddr.port] else []), { p with
          store := (p.store.refresh env.order env.clock src lifetime).2
          activeAllocations := if lifetime = 0 then p.activeAllocations - 1 else p.activeAllocations }) := by
  obtain ⟨data, hReply⟩ := @signedReply_ok env msg
    ((buildSuccessResponse .refresh msg.transactionId).add (.lifetime lifetime)) key rfl (by simp [buildSuccessResponse])
  have hSuccess := (signedReply_spec rfl hReply).2
  refine ⟨data, hSuccess, ?_⟩
  have hRefresh : p.store.refresh env.order env.clock src lifetime =
      (.ok (), (p.store.refresh env.order env.clock src lifetime).2) :=
    Prod.ext (refresh_some env.order env.clock hGet lifetime).1 rfl
  rw [refreshAt, hGet, hRefresh]
  rw [hReply]
  split_ifs <;> rfl

theorem finishMigration_spec (mgr : MigrationManager) (allocId : String) (epoch : UInt64) (relayAddr : SocketAddr) :
    (∃ data, isSuccess data = true ∧ p.finishMigration env msg src key lifetime mgr allocId epoch relayAddr =
      (.send data src :: (if lifetime = 0 then [.closeRelay relayAddr.port] else []),
        { p with
          store := (p.store.refresh env.order env.clock src lifetime).2
          activeAllocations := if lifetime = 0 then p.activeAllocations - 1 else p.activeAllocations })) ∨
      p.finishMigration env msg src key lifetime mgr allocId epoch relayAddr =
        ([.none], { p with store := (p.store.refresh env.order env.clock src lifetime).2 }) := by
  rw [finishMigration]
  split
  · exact .inr rfl
  next data hReply =>
  refine .inl ⟨data, (signedReply_spec rfl hReply).2, ?_⟩
  split_ifs <;> rfl

theorem refreshGranted_none (h : p.refreshTarget env msg src = none) :
    p.refreshGranted env msg src key lifetime = (encodeError msg src 437 "Allocation Mismatch", p) := by
  rw [refreshTarget] at h
  rw [refreshGranted]
  cases hGet : p.store.get src with
  | some a =>
    rw [hGet] at h
    cases h
  | none =>
    rw [hGet] at h
    rw [refreshAt_none hGet, tryMigrationRefresh]
    cases hMigration : p.settings.migration with
    | none => rfl
    | some mgr =>
      cases hTicket : msg.getMobilityTicket with
      | none => rfl
      | some ticket =>
        rw [hMigration, hTicket] at h
        dsimp only at h ⊢
        split_ifs at h ⊢
        · rfl
        · rw [Option.map_eq_none_iff.mp h]
          rfl

theorem refreshGranted_some (hGet : p.store.get src = some a) :
    p.refreshGranted env msg src key lifetime = p.refreshAt env msg src key lifetime := by
  rw [refreshGranted, hGet]

theorem refreshGranted_moved (hVacant : p.store.get src = none) (h : p.refreshTarget env msg src = some oldAddr) :
    ∃ a mgr allocId epoch, p.store.get oldAddr = some a ∧ p.store.getById allocId = some oldAddr ∧
      p.refreshGranted env msg src key lifetime =
        { p with store := (p.store.reKey env.order env.clock oldAddr src).2 }.finishMigration env msg src key lifetime
          mgr allocId epoch a.relayAddr := by
  rw [refreshTarget, hVacant] at h
  dsimp only at h
  split at h
  · next mgr ticket hMigration hTicket =>
    split_ifs at h with hEmpty
    obtain ⟨⟨old, allocId, epoch⟩, hTarget, hOld⟩ := Option.map_eq_some_iff.mp h
    subst hOld
    obtain ⟨-, hId, a, hGet, -⟩ := ticketTarget_spec hTarget
    have hReKey : p.store.reKey env.order env.clock old src =
        (.ok a.relayAddr, (p.store.reKey env.order env.clock old src).2) :=
      Prod.ext (reKey_some env.order env.clock hGet hVacant).1 rfl
    refine ⟨a, mgr, allocId, epoch, hGet, hId, ?_⟩
    rw [refreshGranted, hVacant]
    rw [tryMigrationRefresh, hMigration, hTicket]
    dsimp only
    rw [if_neg hEmpty, hTarget]
    dsimp only
    rw [hReKey]
    rfl
  · cases h

def arrivedFrom (a : Allocation) (c src : SocketAddr) : Allocation :=
  if c = src then a else { a with clientAddr := src, migrationEpoch := a.migrationEpoch + 1 }

theorem store_finishMigration (mgr : MigrationManager) (allocId : String) (epoch : UInt64) (relayAddr : SocketAddr) :
    (p.finishMigration env msg src key lifetime mgr allocId epoch relayAddr).2.store =
      (p.store.refresh env.order env.clock src lifetime).2 := by
  obtain ⟨data, -, hEq⟩ | hEq := @finishMigration_spec p env msg key src lifetime mgr allocId epoch relayAddr
  · rw [hEq]
  · rw [hEq]

/-- Its target is at the source with the new expiry, or gone if the lifetime is zero. -/
theorem get_refreshGranted {c : SocketAddr} (h : p.refreshTarget env msg src = some c) :
    ∃ a, p.store.get c = some a ∧ ∀ c', (p.refreshGranted env msg src key lifetime).2.store.get c' =
      if c' = src then
        if lifetime = 0 then none
        else some { arrivedFrom a c src with expiresAt := env.clock.now + secs lifetime.toNat }
      else if c' = c then none else p.store.get c' := by
  cases hGet : p.store.get src with
  | some a =>
    rw [refreshTarget_some hGet] at h
    cases h
    refine ⟨a, hGet, fun c' => ?_⟩
    obtain ⟨data, -, hEq⟩ := @refreshAt_some p env msg key src lifetime a hGet
    rw [refreshGranted_some hGet, hEq, AllocationStore.get, (refresh_some env.order env.clock hGet lifetime).2,
      arrivedFrom, if_pos rfl, AllocationStore.get]
    split_ifs with hZero hSrc hSrc
    · rw [hSrc, get_remove_self]
    · rw [get_remove_ne _ hSrc]
    · rw [hSrc, get_insert_self]
    · rw [get_insert_ne _ _ hSrc]
  | none =>
    obtain ⟨a, mgr, allocId, epoch, hOld, -, hEq⟩ := @refreshGranted_moved p env msg key src lifetime c hGet h
    have hNe : c ≠ src := by
      rintro rfl
      rw [hOld] at hGet
      cases hGet
    have hMoved := (reKey_some env.order env.clock hOld hGet).2
    have hHere : (p.store.reKey env.order env.clock c src).2.get src = some (arrivedFrom a c src) := by
      rw [AllocationStore.get, hMoved, get_insert_self, arrivedFrom, if_neg hNe]
    refine ⟨a, hOld, fun c' => ?_⟩
    rw [hEq, store_finishMigration, AllocationStore.get, (refresh_some env.order env.clock hHere lifetime).2, hMoved,
      AllocationStore.get]
    split_ifs with hZero hSrc hOldAddr hSrc hOldAddr
    · rw [hSrc, get_remove_self]
    · rw [get_remove_ne _ hSrc, get_insert_ne _ _ hSrc, hOldAddr, get_remove_self]
    · rw [get_remove_ne _ hSrc, get_insert_ne _ _ hSrc, get_remove_ne _ hOldAddr]
    · rw [hSrc, get_insert_self]
    · rw [get_insert_ne _ _ hSrc, get_insert_ne _ _ hSrc, hOldAddr, get_remove_self]
    · rw [get_insert_ne _ _ hSrc, get_insert_ne _ _ hSrc, get_remove_ne _ hOldAddr]

end Processor

/-! ## The lifetime policy of a user under Refresh -/

open Option Scenario

/-- The answer is a success, or the allocation at the source is not what it was. -/
def TookEffect (p : Processor) (src : SocketAddr) (out : List Action × Processor) : Prop :=
  out.2.store.get src ≠ p.store.get src ∨ (successReply src out.1).isSome = true

/-- Maximum lifetime and the disabled switch of the user behind the credentials. -/
def subjectPolicy (p : Processor) (auth : AuthResolution) : Nat × Bool :=
  p.store.lifetimePolicyForUser auth.realm auth.tenantId auth.subject

def sentPolicy (p : Processor) (msg : StunMessage) (auth : AuthResolution) : Nat × Bool :=
  p.store.lifetimePolicyForUser auth.realm auth.tenantId (msg.getUsername.getD auth.subject)

def BoundBySubject (p : Processor) (env : Surroundings) (msg : StunMessage) (raw : Bytes) (src : SocketAddr) : Prop :=
  ∀ auth a, authenticate env msg src raw = .ok auth → TookEffect p src (p.handleRefresh env msg raw src) →
    (p.handleRefresh env msg raw src).2.store.get src = some a →
      (subjectPolicy p auth).2 = false ∧
        ((subjectPolicy p auth).1 ≠ 0 → a.expiresAt ≤ env.clock.now + secs (subjectPolicy p auth).1)

def cappedLifetime (msg : StunMessage) (auth : AuthResolution) : UInt32 :=
  capLifetime (requestedLifetime msg) auth.maxLifetimeSecs

/-- The policy of its USERNAME lets the Refresh through although that of its subject forbids it. -/
def PolicyGap (p : Processor) (env : Surroundings) (msg : StunMessage) (raw : Bytes) (src : SocketAddr) : Prop :=
  ∃ auth, authenticate env msg src raw = .ok auth ∧ (p.refreshTarget env msg src).isSome = true ∧
    0 < cappedLifetime msg auth ∧ (sentPolicy p msg auth).2 = false ∧
      ((subjectPolicy p auth).2 = true ∨ ((subjectPolicy p auth).1 ≠ 0 ∧
        (subjectPolicy p auth).1 < (dynamicCap (cappedLifetime msg auth) (sentPolicy p msg auth).1).toNat))

section Granted

variable {p : Processor} {env : Surroundings} {msg : StunMessage} {raw : Bytes} {src : SocketAddr}
  {auth : AuthResolution} {lifetime : UInt32}

theorem capLifetime_zero (lifetime : UInt32) : capLifetime lifetime (some 0) = 0 := by
  have hMin : min lifetime 0 = if lifetime ≤ 0 then lifetime else 0 := rfl
  rw [capLifetime, map_some, getD_some, hMin]
  split_ifs with hLe
  · exact UInt32.le_antisymm hLe (UInt32.le_iff_toNat_le.mpr (Nat.zero_le _))
  · rfl

theorem dynamicCap_pos {cap : Nat} (h : 0 < lifetime) : 0 < dynamicCap lifetime cap := by
  rw [UInt32.lt_iff_toNat_lt] at h ⊢
  rw [dynamicCap]
  split_ifs with hCap
  · have hLt := lifetime.toNat_lt
    rw [UInt32.toNat_ofNat_of_lt' (Nat.lt_of_le_of_lt (Nat.min_le_left _ _) hLt)]
    exact Nat.lt_min.mpr ⟨h, hCap⟩
  · exact h

theorem refreshLifetime_eq : p.refreshLifetime msg src auth =
    if auth.maxLifetimeSecs = some 0 ∧ 0 < requestedLifetime msg then .error (encodeError msg src 401 "Unauthorized")
    else if 0 < cappedLifetime msg auth then
      if (sentPolicy p msg auth).2 = true then .error (encodeError msg src 486 "Allocation Quota Reached")
      else .ok (dynamicCap (cappedLifetime msg auth) (sentPolicy p msg auth).1)
    else .ok (cappedLifetime msg auth) := rfl

theorem refreshLifetime_pos : (p.refreshLifetime msg src auth = .ok lifetime ∧ 0 < lifetime) ↔
      0 < cappedLifetime msg auth ∧ (sentPolicy p msg auth).2 = false ∧
        lifetime = dynamicCap (cappedLifetime msg auth) (sentPolicy p msg auth).1 := by
  rw [refreshLifetime_eq]
  by_cases hToken : auth.maxLifetimeSecs = some 0 ∧ 0 < requestedLifetime msg
  · rw [if_pos hToken]
    rw [cappedLifetime, hToken.1, capLifetime_zero]
    exact ⟨fun h => (by cases h.1), fun h => absurd h.1 (by decide)⟩
  rw [if_neg hToken]
  by_cases hPos : 0 < cappedLifetime msg auth
  · rw [if_pos hPos]
    cases hSent : (sentPolicy p msg auth).2 with
    | true => exact ⟨fun h => (by cases h.1), fun h => (by cases h.2.1)⟩
    | false =>
      rw [if_neg Bool.false_ne_true]
      refine ⟨fun h => ⟨hPos, rfl, (Except.ok.inj h.1).symm⟩, fun h => ⟨congrArg _ h.2.2.symm, ?_⟩⟩
      rw [h.2.2]
      exact dynamicCap_pos hPos
  · rw [if_neg hPos]
    refine ⟨fun h => absurd ?_ hPos, fun h => absurd h.1 hPos⟩
    rw [Except.ok.inj h.1]
    exact h.2

theorem secs_inj {m n : Nat} : secs m ≤ secs n ↔ m ≤ n := by
  unfold secs
  omega

theorem granted_takesEffect (hTarget : (p.refreshTarget env msg src).isSome = true) (hPos : lifetime ≠ 0) (key : Bytes) :
    TookEffect p src (p.refreshGranted env msg src key lifetime) ∧
      ∃ a, (p.refreshGranted env msg src key lifetime).2.store.get src = some a ∧
        a.expiresAt = env.clock.now + secs lifetime.toNat := by
  obtain ⟨c, hTarget⟩ := isSome_iff_exists.mp hTarget
  obtain ⟨a, -, hAfter⟩ := @get_refreshGranted p env msg key src lifetime c hTarget
  have hHere := hAfter src
  rw [if_pos rfl, if_neg hPos] at hHere
  refine ⟨?_, _, hHere, rfl⟩
  cases hGet : p.store.get src with
  | some b =>
    obtain ⟨data, hData, hEq⟩ := @refreshAt_some p env msg key src lifetime b hGet
    rw [refreshGranted_some hGet, hEq]
    exact .inr (by rw [successReply_send hData]; rfl)
  | none =>
    left
    rw [hHere, hGet]
    exact some_ne_none _

theorem takesEffect_granted {a : Allocation} (key : Bytes)
    (hEffect : TookEffect p src (p.refreshGranted env msg src key lifetime))
    (hAfter : (p.refreshGranted env msg src key lifetime).2.store.get src = some a) :
    (p.refreshTarget env msg src).isSome = true ∧ lifetime ≠ 0 ∧
      a.expiresAt = env.clock.now + secs lifetime.toNat := by
  cases hTarget : p.refreshTarget env msg src with
  | none =>
    rw [refreshGranted_none hTarget] at hEffect
    obtain hChanged | hReply := hEffect
    · exact absurd rfl hChanged
    · rw [(refusal_encodeError msg src _ _).successReply src] at hReply
      cases hReply
  | some c =>
    obtain ⟨b, -, hGet⟩ := @get_refreshGranted p env msg key src lifetime c hTarget
    rw [hGet, if_pos rfl] at hAfter
    split_ifs at hAfter with hZero
    cases hAfter
    exact ⟨rfl, hZero, rfl⟩

theorem handleRefresh_granted (hAuth : authenticate env msg src raw = .ok auth)
    (hLifetime : p.refreshLifetime msg src auth = .ok lifetime) :
    p.handleRefresh env msg raw src = p.refreshGranted env msg src auth.key lifetime := by
  rw [handleRefresh, hAuth]
  dsimp only
  rw [hLifetime]

variable {actions : List Action}

theorem handleRefresh_refused (hAuth : authenticate env msg src raw = .ok auth)
    (hLifetime : p.refreshLifetime msg src auth = .error actions) : p.handleRefresh env msg raw src = (actions, p) := by
  rw [handleRefresh, hAuth]
  dsimp only
  rw [hLifetime]

theorem refusal_refreshLifetime (h : p.refreshLifetime msg src auth = .error actions) : Refusal actions := by
  rw [refreshLifetime_eq] at h
  split_ifs at h
  all_goals
    cases h
    exact refusal_encodeError msg src _ _

end Granted

/-! ## A time-limited credential -/

def aliceDisabled : UserLimitsSnapshot :=
  { UserLimitsSnapshot.empty with
    users := HashMap.empty.insert ("r", "", "alice") ⟨none, none, some ⟨.disabled, 0⟩⟩ }

def aliceServer : Processor :=
  let p := (Scenario.server.process (Scenario.surroundings Scenario.sharedSecret 0)
    (Scenario.wire (Scenario.allocateUdp 1 "9:alice")) (Scenario.client 1)).2
  { p with store := { p.store with userLimits := aliceDisabled } }

def aliceRefresh : StunMessage := Scenario.request .refresh 2 "9:alice" []

def aliceEnv : Surroundings := Scenario.surroundings Scenario.sharedSecret (secs 1)

/-- The Refresh of a disabled user with a time-limited credential extends the allocation. -/
theorem disabled_subject_refreshes : ∃ (p : Processor) (env : Surroundings) (msg : StunMessage) (raw : Bytes)
    (src : SocketAddr), StunMessage.decode raw = .ok msg ∧ ¬ BoundBySubject p env msg raw src := by
  refine ⟨aliceServer, aliceEnv, arrived aliceRefresh, wire aliceRefresh, client 1,
    by decide +kernel, fun hBound => ?_⟩
  have hReply : (successReply (client 1) (aliceServer.handleRefresh aliceEnv (arrived aliceRefresh)
      (wire aliceRefresh) (client 1)).1).isSome = true := by decide +kernel
  have hKept : ((aliceServer.handleRefresh aliceEnv (arrived aliceRefresh) (wire aliceRefresh)
      (client 1)).2.store.get (client 1)).isSome = true := by decide +kernel
  have hPolicy : (authenticate aliceEnv (arrived aliceRefresh) (client 1)
      (wire aliceRefresh)).toOption.map (fun auth => (subjectPolicy aliceServer auth).2) = some true := by
    decide +kernel
  obtain ⟨a, hGet⟩ := isSome_iff_exists.mp hKept
  cases hAuth : authenticate aliceEnv (arrived aliceRefresh) (client 1)
      (wire aliceRefresh) with
  | error actions =>
    rw [hAuth] at hPolicy
    cases hPolicy
  | ok auth =>
    rw [hAuth] at hPolicy
    have hDisabled : (subjectPolicy aliceServer auth).2 = true := some.inj hPolicy
    have hEnabled := (hBound auth a hAuth (.inr hReply) hGet).1
    rw [hDisabled] at hEnabled
    cases hEnabled

/-- Exactly if the policy of its USERNAME lets nothing through that the subject's forbids. -/
theorem refresh_bound_iff (p : Processor) (env : Surroundings) (msg : StunMessage) (raw : Bytes) (src : SocketAddr) :
    BoundBySubject p env msg raw src ↔ ¬ PolicyGap p env msg raw src := by
  constructor
  · rintro hBound ⟨auth, hAuth, hTarget, hAsked, hSent, hSubject⟩
    obtain ⟨hLifetime, hPos⟩ := (@refreshLifetime_pos p msg src auth _).mpr ⟨hAsked, hSent, rfl⟩
    obtain ⟨hEffect, a, hGet, hExpires⟩ := granted_takesEffect hTarget (UInt32.pos_iff_ne_zero.mp hPos) auth.key
    rw [← handleRefresh_granted hAuth hLifetime] at hEffect hGet
    obtain ⟨hEnabled, hMax⟩ := hBound auth a hAuth hEffect hGet
    obtain hDisabled | ⟨hSome, hOver⟩ := hSubject
    · rw [hEnabled] at hDisabled
      cases hDisabled
    have hLe := hMax hSome
    rw [hExpires, Nat.add_le_add_iff_left, secs_inj] at hLe
    exact Nat.not_le.mpr hOver hLe
  · intro hGap auth a hAuth hEffect hGet
    cases hLifetime : p.refreshLifetime msg src auth with
    | error actions =>
      rw [handleRefresh_refused hAuth hLifetime] at hEffect
      obtain hChanged | hReply := hEffect
      · exact absurd rfl hChanged
      · rw [(refusal_refreshLifetime hLifetime).successReply src] at hReply
        cases hReply
    | ok lifetime =>
      rw [handleRefresh_granted hAuth hLifetime] at hEffect hGet
      obtain ⟨hTarget, hNonzero, hExpires⟩ := takesEffect_granted auth.key hEffect hGet
      have hPos : 0 < lifetime := UInt32.pos_iff_ne_zero.mpr hNonzero
      obtain ⟨hAsked, hSent, hCap⟩ := refreshLifetime_pos.mp ⟨hLifetime, hPos⟩
      have hFits : ¬ ((subjectPolicy p auth).2 = true ∨ _) := fun h => hGap ⟨auth, hAuth, hTarget, hAsked, hSent, h⟩
      rw [not_or, Bool.not_eq_true, not_and, Nat.not_lt] at hFits
      refine ⟨hFits.1, fun hSome => ?_⟩
      rw [hExpires, Nat.add_le_add_iff_left, secs_inj, hCap]
      exact hFits.2 hSome

end Turna.Relay
