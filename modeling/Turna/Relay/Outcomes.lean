import Turna.Relay.Ownership
import Turna.Session.TableLaws

/-! # What a packet from a client can do

Every packet leaves the table alone, carries one payload to a peer, or is an authenticated request that
edits, closes, moves or opens one allocation. `PacketOutcome` lists the cases with the events on the
table and the guards they were taken under.
-/

namespace Turna.Relay
open Lib Net Crypto Stun Auth Session Transport Processor HashMap StunMessage

def RepliesTo (src : SocketAddr) (actions : List Action) : Prop :=
  ∀ data target, .send data target ∈ actions → target = src

def Silent (actions : List Action) : Prop := ∀ data target, .send data target ∉ actions

theorem Silent.repliesTo {actions : List Action} (h : Silent actions) (src : SocketAddr) : RepliesTo src actions :=
  fun data target hIn => absurd hIn (h data target)

theorem silent_nil : Silent [] := fun _ _ => List.not_mem_nil

theorem silent_singleton {x : Action} (h : ∀ data target, .send data target ≠ x) : Silent [x] :=
  fun data target hIn => h data target (List.mem_singleton.mp hIn)

theorem silent_none : Silent [.none] := silent_singleton nofun

def Action.payload : Action → Option (Nat × SocketAddr × UInt16)
  | .forward data target relayPort => some (data.length, target, relayPort)
  | .forwardZeroCopy _ len target relayPort => some (len, target, relayPort)
  | .sendViaRelay data target relayPort => some (data.length, target, relayPort)
  | _ => Option.none

def Plain (actions : List Action) : Prop := ∀ x ∈ actions, x.payload = none

def Owned (actions : List Action) : Prop :=
  ∀ offset len target relayPort, .forwardZeroCopy offset len target relayPort ∉ actions

theorem Plain.owned {actions : List Action} (h : Plain actions) : Owned actions :=
  fun _ _ _ _ hIn => nomatch h _ hIn

def SameCache (p : Processor) (result : List Action × Processor) : Prop :=
  result.2.udpTransactions = p.udpTransactions

/-- One response at most, to `src`, or a lookup that is to come before it. -/
structure Answer (src : SocketAddr) (actions : List Action) : Prop where
  repliesTo : RepliesTo src actions
  plain : Plain actions
  length_le : actions.length ≤ 1

structure Refused (src : SocketAddr) (actions : List Action) : Prop extends Answer src actions where
  refusal : Refusal actions

def Refuses {α : Type} (src : SocketAddr) (result : Except (List Action) α) : Prop :=
  ∀ actions, result = .error actions → Answer src actions

structure Handled (src : SocketAddr) (p : Processor) (result : List Action × Processor) : Prop where
  repliesTo : RepliesTo src result.1
  sameCache : SameCache p result

/-! ## Responses -/

section Responses

variable {α : Type} {env : Surroundings} {msg : StunMessage} {raw : Bytes} {src : SocketAddr} {actions : List Action}
  {p : Processor} {store : AllocationStore} {x : Action}

theorem repliesTo_cons (hFirst : ∀ data target, x = .send data target → target = src) (h : RepliesTo src actions) :
    RepliesTo src (x :: actions) := by
  intro data target hIn
  obtain hEq | hRest := List.mem_cons.mp hIn
  · exact hFirst data target hEq.symm
  · exact h data target hRest

theorem repliesTo_singleton (h : ∀ data target, .send data target ≠ x) : RepliesTo src [x] :=
  (silent_singleton h).repliesTo src

theorem repliesTo_send (data : Bytes) (h : RepliesTo src actions) : RepliesTo src (.send data src :: actions) :=
  repliesTo_cons (fun _ _ hEq => (Action.send.inj hEq).2.symm) h

theorem plain_nil : Plain [] := fun _ hIn => nomatch hIn

theorem plain_cons (hFirst : x.payload = none) (h : Plain actions) : Plain (x :: actions) := by
  rintro y (_ | ⟨_, hIn⟩)
  · exact hFirst
  · exact h y hIn

theorem plain_none : Plain [.none] := plain_cons rfl plain_nil

theorem answer_none : Answer src [.none] := ⟨silent_none.repliesTo src, plain_none, Nat.le_refl _⟩

theorem answer_encodeOrDrop (encoded : Except StunError Bytes) : Answer src (encodeOrDrop encoded src) := by
  cases encoded with
  | error e => exact answer_none
  | ok data => exact ⟨repliesTo_send data (silent_nil.repliesTo src), plain_cons rfl plain_nil, Nat.le_refl _⟩

theorem refused_encodeError (code : UInt16) (reason : String) : Refused src (encodeError msg src code reason) :=
  ⟨answer_encodeOrDrop _, refusal_encodeError msg src code reason⟩

theorem answer_encodeError (code : UInt16) (reason : String) : Answer src (encodeError msg src code reason) :=
  answer_encodeOrDrop _

@[simp] theorem refuses_ok (x : α) : Refuses src (.ok x : Except (List Action) α) := by
  rintro _ ⟨⟩

theorem refuses_error (h : Answer src actions) : Refuses src (.error actions : Except (List Action) α) := by
  rintro _ ⟨⟩
  exact h

@[simp] theorem refuses_encodeError (code : UInt16) (reason : String) :
    Refuses src (.error (encodeError msg src code reason) : Except (List Action) α) :=
  refuses_error (answer_encodeError code reason)

theorem Answer.handled (h : Answer src actions) : Handled src p (actions, { p with store }) := ⟨h.repliesTo, rfl⟩

theorem refused_encodeAuthChallenge : Refused src (encodeAuthChallenge env msg src) := by
  refine ⟨?_, refusal_encodeAuthChallenge env msg src⟩
  rw [encodeAuthChallenge]
  split
  · exact answer_none
  · exact answer_encodeOrDrop _

theorem refused_validateNonce (h : validateNonce env msg src = some actions) : Refused src actions := by
  rw [validateNonce] at h
  split at h
  · split at h
    · cases h
    · cases h
      exact ⟨answer_encodeOrDrop _, refusal_encode rfl rfl 512 src⟩
  · cases h
    exact refused_encodeAuthChallenge

theorem refused_authDeferred {e : AuthError} (h : authDeferred msg src e = some actions) : Refused src actions := by
  cases e <;> cases h
  · exact ⟨⟨repliesTo_singleton nofun, plain_cons rfl plain_nil, Nat.le_refl _⟩, by simp [Refusal]⟩
  all_goals exact refused_encodeError _ _

theorem refused_authRefused (e : AuthError) : Refused src (authRefused env msg src e) := by
  unfold authRefused
  split
  · next hDeferred => exact refused_authDeferred hDeferred
  split
  · exact refused_encodeError _ _
  · exact refused_encodeAuthChallenge

theorem refused_authenticate (h : authenticate env msg src raw = .error actions) : Refused src actions := by
  unfold authenticate at h
  split at h
  · cases h
    exact refused_encodeAuthChallenge
  split at h
  · next hNonce =>
    cases h
    exact refused_validateNonce hNonce
  split at h
  · cases h
  · cases h
    exact refused_authRefused _

theorem answer_rejectUnknown (h : rejectUnknownComprehensionRequired msg src = some actions) : Answer src actions := by
  rw [rejectUnknownComprehensionRequired] at h
  dsimp only at h
  split at h
  · cases h
  · cases h
    exact answer_encodeOrDrop _

end Responses

/-! ## Handlers -/

section Handlers

variable {p : Processor} {env : Surroundings} {msg : StunMessage} {raw : Bytes} {src : SocketAddr}
  {auth : AuthResolution} {actions : List Action}

theorem answer_redirect (h : p.maybeRedirectNewClient env msg src = some actions) : Answer src actions := by
  rw [maybeRedirectNewClient] at h
  split at h
  · cases h
  · obtain ⟨target, -, rfl⟩ := Option.map_eq_some_iff.mp h
    exact answer_encodeOrDrop _

theorem refuses_bindingKey : Refuses src (p.bindingKey env msg raw src) := by
  unfold bindingKey
  dsimp only
  split
  · exact refuses_error refused_encodeAuthChallenge.toAnswer
  split
  · next hNonce =>
    split at hNonce
    · exact refuses_error (refused_validateNonce hNonce).toAnswer
    · cases hNonce
  split
  · split
    · exact refuses_ok _
    next e hFailed =>
    cases hDeferred : authDeferred msg src e with
    | none => exact refuses_error refused_encodeAuthChallenge.toAnswer
    | some actions => exact refuses_error (refused_authDeferred hDeferred).toAnswer
  · exact refuses_ok _

theorem answer_handleBinding : Answer src (p.handleBinding env msg raw src) := by
  rw [handleBinding]
  split
  · exact answer_none
  split
  · next hKey => exact refuses_bindingKey _ hKey
  · dsimp only
    split <;> exact answer_encodeOrDrop _

theorem refuses_refreshLifetime : Refuses src (p.refreshLifetime msg src auth) := by
  simp only [refreshLifetime]
  repeat' split
  all_goals simp

theorem refused_refusePeers {peers : List IpAddr} (h : p.refusePeers msg src peers = some actions) :
    Refused src actions := by
  induction peers with
  | nil => cases h
  | cons peer peers ih =>
    rw [refusePeers] at h
    split at h
    · cases h
      exact refused_encodeError _ _
    split at h
    · cases h
      exact refused_encodeError _ _
    · exact ih h

theorem refuses_bindTarget : Refuses src (p.bindTarget msg src) := by
  simp only [bindTarget]
  repeat' split
  all_goals simp

theorem refuses_portRequest : Refuses src (p.portRequest msg src) := by
  simp only [portRequest]
  repeat' split
  all_goals simp

theorem answer_createRefused (e : SessionError) : Answer src (createRefused msg src e) := by
  cases e <;> exact answer_encodeError _ _

theorem refuses_tcpFamily : Refuses src (p.tcpFamily msg src) := by
  simp only [tcpFamily]
  repeat' split
  all_goals simp

variable {ingressTcp : Bool}

theorem refuses_allocateTransport : Refuses src (p.allocateTransport env msg src auth ingressTcp) := by
  simp only [allocateTransport]
  repeat' split
  all_goals simp

/-! ## Entry points -/

theorem silent_processChannelData : Silent (p.processChannelData env raw src).1 := by
  unfold processChannelData
  split
  · exact silent_singleton nofun
  · exact silent_none

end Handlers

/-! ## What a packet from a client can do -/

structure Asked (env : Surroundings) (raw : Bytes) (src : SocketAddr) (method : Method) (msg : StunMessage)
    (auth : AuthResolution) : Prop where
  decoded : StunMessage.decode raw = .ok msg
  request : msg.cls = .request
  method : msg.method = method
  authenticated : authenticate env msg src raw = .ok auth

/-- What is new is for a peer that passes the filter and has the family of the relayed address. -/
structure Installs (policy : PeerPolicy) (a a' : Allocation) : Prop where
  permissions : ∀ ip perm, a'.permissions.get ip = some perm → a.permissions.get ip = some perm ∨
    (policy.isForbidden ip = false ∧ a'.relayAddr.isIpv6 = ip.isIpv6)
  channels : ∀ ch b, a'.channelBindings.get ch = some b → a.channelBindings.get ch = some b ∨
    (policy.isForbidden b.peerAddr.ip = false ∧ a'.relayAddr.isIpv6 = b.peerAddr.ip.isIpv6)

def ticketIdRoom : Nat := 480

inductive PacketOutcome (p : Processor) (env : Surroundings) (raw : Bytes) (src : SocketAddr) :
    List TableEvent → List Action → Processor → Prop where
  | idle {actions : List Action} {p' : Processor} (hTables : SameTables p.store p'.store)
      (hGauge : p'.activeAllocations = p.activeAllocations) (hPlain : Plain actions) :
      PacketOutcome p env raw src [.quiet] actions p'
  | relayed {a : Allocation} {x : Action} {n : Nat} {peer : SocketAddr} {p' : Processor}
      (hGet : p.store.get src = some a)
      (hLive : a.isExpired env.clock.now = false)
      (hAllowed : (∃ ch, a.getChannelPeer env.clock.now ch = some peer) ∨ a.hasPermission env.clock.now peer = true)
      (hPayload : x.payload = some (n, peer, a.relayAddr.port))
      (hStore : p'.store = p.store.meter src (a.addBytes n)) (hGauge : p'.activeAllocations = p.activeAllocations) :
      PacketOutcome p env raw src [.meter src n false] [x] p'
  | edited {es : List TableEvent} {method : Method} {msg : StunMessage} {auth : AuthResolution} {a a' : Allocation}
      {actions : List Action} {p' : Processor} (hAsked : Asked env raw src method msg auth)
      (hMethod : method = .refresh ∨ method = .createPermission ∨ method = .channelBind)
      (hGet : p.store.get src = some a) (hRun : TableRun es p.store p'.store) (hEdits : ∀ e ∈ es, e = .edit src)
      (hGet' : p'.store.get src = some a') (hOwner : SameOwner a a') (hInstalls : Installs p.settings.policy a a')
      (hGauge : p'.activeAllocations = p.activeAllocations) (hPlain : Plain actions) :
      PacketOutcome p env raw src es actions p'
  | closed {msg : StunMessage} {auth : AuthResolution} {a : Allocation} {reason : UsageEndReason}
      {actions : List Action} {p' : Processor} (hAsked : Asked env raw src .refresh msg auth)
      (hStep : TableStep (.closed src a reason env.clock.epochMs) p.store p'.store)
      (hGauge : p'.activeAllocations = p.activeAllocations - 1) (hPlain : Plain actions) :
      PacketOutcome p env raw src [.closed src a reason env.clock.epochMs] actions p'
  | moved {oldAddr : SocketAddr} {es : List TableEvent} {msg : StunMessage} {auth : AuthResolution} {a : Allocation}
      {actions : List Action} {p' : Processor} (hAsked : Asked env raw src .refresh msg auth)
      (hVacant : p.store.get src = none) (hTarget : p.refreshTarget env msg src = some oldAddr)
      (hGet : p.store.get oldAddr = some a) (hRun : TableRun (.moved oldAddr src :: es) p.store p'.store)
      (hRest : es = [.edit src] ∨ ∃ b reason, es = [.closed src b reason env.clock.epochMs])
      (hTables : ∀ a', p'.store.get src = some a' → SameOwner a a' ∧ a'.permissions = a.permissions ∧
        a'.channelBindings = a.channelBindings)
      (hGauge : p'.activeAllocations = p.activeAllocations + net es ∨
        ∃ id, p.store.getById id = some oldAddr ∧ ticketIdRoom < (Utf8.encode id).length)
      (hPlain : Plain actions) :
      PacketOutcome p env raw src (.moved oldAddr src :: es) actions p'
  | created {es : List TableEvent} {msg : StunMessage} {auth : AuthResolution} {a : Allocation}
      {actions : List Action} {p' : Processor} (hAsked : Asked env raw src .allocate msg auth)
      (hVacant : p.store.get src = none) (hClient : a.clientAddr = src)
      (hRun : TableRun (.opened a :: es) p.store p'.store) (hRest : es = [] ∨ es = [.edit src])
      (hTables : ∀ a', p'.store.get src = some a' → a'.permissions = .empty ∧ a'.channelBindings = .empty)
      (hShort : (Utf8.encode a.allocationId).length ≤ ticketIdRoom)
      (hGauge : p'.activeAllocations = p.activeAllocations + 1) (hPlain : Plain actions) :
      PacketOutcome p env raw src (.opened a :: es) actions p'

abbrev HasOutcome (p : Processor) (env : Surroundings) (raw : Bytes) (src : SocketAddr) (out : List Action × Processor) :
    Prop :=
  ∃ es, PacketOutcome p env raw src es out.1 out.2

structure Served (p : Processor) (env : Surroundings) (raw : Bytes) (src : SocketAddr)
    (out : List Action × Processor) : Prop extends Handled src p out where
  owned : Owned out.1
  outcome : HasOutcome p env raw src out

namespace Installs

variable {policy : PeerPolicy} {a a' : Allocation}

theorem of_same (hPermissions : a'.permissions = a.permissions) (hChannels : a'.channelBindings = a.channelBindings) :
    Installs policy a a' where
  permissions _ _ h := .inl (hPermissions ▸ h)
  channels _ _ h := .inl (hChannels ▸ h)

end Installs

section Handlers

variable {p : Processor} {env : Surroundings} {msg : StunMessage} {raw : Bytes} {src : SocketAddr}
  {auth : AuthResolution}

theorem Answer.idle {actions : List Action} {store : AllocationStore} (h : Answer src actions)
    (hTables : SameTables p.store store) : Served p env raw src (actions, { p with store }) :=
  ⟨h.handled, h.plain.owned, _, .idle hTables rfl h.plain⟩

theorem Answer.served {actions : List Action} (h : Answer src actions) : Served p env raw src (actions, p) :=
  h.idle (.refl p.store)

theorem served_none : Served p env raw src ([.none], p) := answer_none.served

/-! ### Refresh -/

theorem closing_spec (data : Bytes) (lifetime : UInt32) (port : UInt16) :
    RepliesTo src (.send data src :: if lifetime = 0 then [.closeRelay port] else []) ∧
      Plain (.send data src :: if lifetime = 0 then [.closeRelay port] else []) := by
  split
  · exact ⟨repliesTo_send data (repliesTo_singleton nofun), plain_cons rfl (plain_cons rfl plain_nil)⟩
  · exact ⟨repliesTo_send data (silent_nil.repliesTo src), plain_cons rfl plain_nil⟩

variable {key : Bytes} {lifetime : UInt32} {actions : List Action} {a : Allocation} {peers : List IpAddr}
  {channel : UInt16} {peerAddr relayAddr : SocketAddr}

theorem finishMigration_gauge (mgr : MigrationManager) (allocId : String) (epoch : UInt64) (relayAddr : SocketAddr)
    (hId : (Utf8.encode allocId).length ≤ ticketIdRoom) :
    (p.finishMigration env msg src key lifetime mgr allocId epoch relayAddr).2.activeAllocations =
      if lifetime = 0 then p.activeAllocations - 1 else p.activeAllocations := by
  rw [finishMigration]
  generalize (((p.store.refresh env.order env.clock src lifetime).2.get src).map Allocation.migrationEpoch).getD
    (epoch + 1) = newEpoch
  have hTicket := mgr.length_issueToken env.authEnv.crypto env.unixSecs allocId newEpoch
  generalize mgr.issueToken env.authEnv.crypto env.unixSecs allocId newEpoch = ticket at hTicket ⊢
  have hTicketSize := size_mobilityTicket msg.transactionId ticket
  have hAddressSize := size_xorMappedAddress msg.transactionId src
  rw [ticketIdRoom] at hId
  obtain ⟨data, hReply⟩ := @signedReply_ok env msg ((((buildSuccessResponse .refresh msg.transactionId).add
    (.lifetime lifetime)).add (.xorMappedAddress src)).add (.mobilityTicket ticket)) key rfl (by
      simp only [attrsSize_add, buildSuccessResponse, attrsSize_withTransactionId, size_lifetime, transactionId_add,
        transactionId_withTransactionId]
      omega)
  rw [hReply]
  split_ifs <;> rfl

theorem served_refreshAt (hAsked : Asked env raw src .refresh msg auth)
    (hGet : p.store.get src = some a) : Served p env raw src (p.refreshAt env msg src key lifetime) := by
  obtain ⟨data, -, hEq⟩ := @refreshAt_some p env msg key src lifetime a hGet
  obtain ⟨hReplies, hPlain⟩ := @closing_spec src data lifetime a.relayAddr.port
  rw [hEq]
  refine ⟨⟨hReplies, rfl⟩, hPlain.owned, ?_⟩
  by_cases hZero : lifetime = 0
  · subst hZero
    obtain ⟨reason, hStep⟩ := refresh_closed p.store env.order env.clock hGet
    exact ⟨_, .closed hAsked hStep rfl hPlain⟩
  have hStep := refresh_edit p.store env.order env.clock hGet hZero
  have hGet' : (p.store.refresh env.order env.clock src lifetime).2.get src =
      some { a with expiresAt := env.clock.now + secs lifetime.toNat } := by
    rw [AllocationStore.get, (refresh_some env.order env.clock hGet lifetime).2, if_neg hZero, get_insert_self]
  exact ⟨[.edit src], .edited hAsked (.inl rfl) hGet (.single hStep) (by simp) hGet' ⟨rfl, rfl, rfl, rfl, rfl⟩
    (.of_same rfl rfl) (if_neg hZero) hPlain⟩

theorem served_moved {oldAddr : SocketAddr} (hAsked : Asked env raw src .refresh msg auth)
    (hVacant : p.store.get src = none) (hTarget : p.refreshTarget env msg src = some oldAddr) :
    Served p env raw src (p.refreshGranted env msg src key lifetime) := by
  obtain ⟨a, mgr, allocId, epoch, hGet, hId, hEq⟩ := @refreshGranted_moved p env msg key src lifetime oldAddr hVacant hTarget
  have hMove := reKey_event p.store env.order env.clock hGet hVacant
  have hHere : (p.store.reKey env.order env.clock oldAddr src).2.get src =
      some { a with clientAddr := src, migrationEpoch := a.migrationEpoch + 1 } := by
    rw [AllocationStore.get, (reKey_some env.order env.clock hGet hVacant).2, get_insert_self]
  rw [hEq]
  generalize hMoved : { p with store := (p.store.reKey env.order env.clock oldAddr src).2 } = q
  have hStore : q.store = (p.store.reKey env.order env.clock oldAddr src).2 := hMoved ▸ rfl
  have hSame : q.activeAllocations = p.activeAllocations := hMoved ▸ rfl
  have hCache : q.udpTransactions = p.udpTransactions := hMoved ▸ rfl
  rw [← hStore] at hMove hHere
  obtain ⟨hHandled, hPlain⟩ : Handled src p (q.finishMigration env msg src key lifetime mgr allocId epoch a.relayAddr) ∧
      Plain (q.finishMigration env msg src key lifetime mgr allocId epoch a.relayAddr).1 := by
    obtain ⟨data, -, hEq⟩ | hEq := @finishMigration_spec q env msg key src lifetime mgr allocId epoch a.relayAddr
    · obtain ⟨hReplies, hPlain⟩ := @closing_spec src data lifetime a.relayAddr.port
      rw [hEq]
      exact ⟨⟨hReplies, hCache⟩, hPlain⟩
    · rw [hEq]
      exact ⟨⟨answer_none.repliesTo, hCache⟩, plain_none⟩
  have hAfter : (q.finishMigration env msg src key lifetime mgr allocId epoch a.relayAddr).2.store =
      (q.store.refresh env.order env.clock src lifetime).2 := store_finishMigration ..
  have hGauge : (q.finishMigration env msg src key lifetime mgr allocId epoch a.relayAddr).2.activeAllocations =
      (if lifetime = 0 then p.activeAllocations - 1 else p.activeAllocations) ∨
        ∃ id, p.store.getById id = some oldAddr ∧ ticketIdRoom < (Utf8.encode id).length := by
    by_cases hLong : (Utf8.encode allocId).length ≤ ticketIdRoom
    · rw [finishMigration_gauge mgr allocId epoch a.relayAddr hLong, hSame]
      exact .inl rfl
    · exact .inr ⟨allocId, hId, Nat.not_le.mp hLong⟩
  have hTables : ∀ a', (q.store.refresh env.order env.clock src lifetime).2.get src = some a' →
      SameOwner a a' ∧ a'.permissions = a.permissions ∧ a'.channelBindings = a.channelBindings := by
    intro a' hGet'
    rw [AllocationStore.get, (refresh_some env.order env.clock hHere lifetime).2] at hGet'
    split_ifs at hGet'
    · rw [get_remove_self] at hGet'
      cases hGet'
    rw [get_insert_self] at hGet'
    cases hGet'
    exact ⟨⟨rfl, rfl, rfl, rfl, rfl⟩, rfl, rfl⟩
  generalize q.finishMigration env msg src key lifetime mgr allocId epoch a.relayAddr = r
    at hHandled hPlain hAfter hGauge ⊢
  refine ⟨hHandled, hPlain.owned, ?_⟩
  rw [← hAfter] at hTables
  by_cases hZero : lifetime = 0
  · rw [if_pos hZero] at hGauge
    obtain ⟨reason, hStep⟩ := refresh_closed q.store env.order env.clock hHere
    rw [← hZero, ← hAfter] at hStep
    exact ⟨_, .moved hAsked hVacant hTarget hGet (.cons hMove (.single hStep)) (.inr ⟨_, reason, rfl⟩) hTables hGauge hPlain⟩
  · rw [if_neg hZero] at hGauge
    have hStep := refresh_edit q.store env.order env.clock hHere hZero
    rw [← hAfter] at hStep
    refine ⟨_, .moved hAsked hVacant hTarget hGet (.cons hMove (.single hStep)) (.inl rfl) hTables ?_ hPlain⟩
    exact hGauge.imp_left (fun h => h.trans (Int.add_zero _).symm)

theorem served_handleRefresh (hDecode : decode raw = .ok msg) (hRequest : msg.cls = .request)
    (hMethod : msg.method = .refresh) : Served p env raw src (p.handleRefresh env msg raw src) := by
  rw [handleRefresh]
  cases hAuth : authenticate env msg src raw with
  | error actions => exact (refused_authenticate hAuth).served
  | ok auth =>
    have hAsked : Asked env raw src .refresh msg auth := ⟨hDecode, hRequest, hMethod, hAuth⟩
    dsimp only
    cases hLifetime : p.refreshLifetime msg src auth with
    | error actions =>
      exact (refuses_refreshLifetime _ hLifetime).served
    | ok lifetime =>
      dsimp only
      cases hTarget : p.refreshTarget env msg src with
      | none =>
        rw [refreshGranted_none hTarget]
        exact (answer_encodeError _ _).served
      | some c =>
        cases hGet : p.store.get src with
        | none => exact served_moved hAsked hGet hTarget
        | some a =>
          rw [refreshGranted_some hGet]
          exact served_refreshAt hAsked hGet

/-! ### CreatePermission -/

theorem passed_refusePeers (h : p.refusePeers msg src peers = none) {ip : IpAddr}
    (hIn : ip ∈ peers) : p.settings.policy.isForbidden ip = false ∧ p.peerFamilyMismatch src ip = false := by
  induction peers with
  | nil => cases hIn
  | cons peer peers ih =>
    rw [refusePeers] at h
    split_ifs at h with hForbidden hFamily
    obtain rfl | hIn := List.mem_cons.mp hIn
    · exact ⟨Bool.eq_false_iff.mpr hForbidden, Bool.eq_false_iff.mpr hFamily⟩
    · exact ih h hIn

theorem family_of_match {ip : IpAddr} (hGet : p.store.get src = some a)
    (h : p.peerFamilyMismatch src ip = false) : a.relayAddr.isIpv6 = ip.isIpv6 := by
  rw [peerFamilyMismatch, hGet] at h
  exact bne_eq_false_iff_eq.mp h

theorem edits_of_event {s s' : AllocationStore} (h : TableStep (.edit src) s s' ∨ s' = s) :
    ∃ es, TableRun es s s' ∧ ∀ e ∈ es, e = .edit src := by
  obtain hStep | rfl := h
  · exact ⟨[.edit src], .single hStep, by simp⟩
  · exact ⟨[], .nil s', by simp⟩

theorem installPermissions_events (s : AllocationStore) (peers : List IpAddr) :
    ∃ es, TableRun es s (installPermissions env src peers s).2 ∧ ∀ e ∈ es, e = .edit src := by
  induction peers generalizing s with
  | nil => exact ⟨[], .nil s, by simp⟩
  | cons peer peers ih =>
    have hFirst := addPermission_event s env.clock src peer
    rw [installPermissions]
    generalize s.addPermission env.clock src peer = r at hFirst
    obtain ⟨result, store⟩ := r
    obtain ⟨es, hRun, hEdits⟩ := edits_of_event hFirst
    cases result with
    | error e => exact ⟨es, hRun, hEdits⟩
    | ok =>
      obtain ⟨es', hRun', hEdits'⟩ := ih store
      refine ⟨es ++ es', hRun.append hRun', fun e he => ?_⟩
      exact (List.mem_append.mp he).elim (hEdits e) (hEdits' e)

theorem installs_permit (hGet : p.store.get src = some a) (h : p.refusePeers msg src peers = none) (now : Nat) :
    Installs p.settings.policy a { a with permissions := permit now peers a.permissions } where
  permissions ip perm hPerm := by
    rw [show (Allocation.permissions { a with permissions := permit now peers a.permissions }) =
      permit now peers a.permissions from rfl, get_permit] at hPerm
    split_ifs at hPerm with hIn
    · obtain ⟨hAllowed, hFamily⟩ := passed_refusePeers h (installed_subset _ _ _ hIn)
      have hMatch := family_of_match hGet hFamily
      exact .inr ⟨hAllowed, hMatch⟩
    · exact .inl hPerm
  channels ch b hChannel := .inl hChannel

def acceptsWrite (s : AllocationStore) : Bool :=
  s.writeTx.any fun tx => !tx.closed && decide (tx.sent.length - tx.received < tx.capacity)

def sentCount (s : AllocationStore) : Nat := (s.writeTx.map fun tx => tx.sent.length).getD 0

theorem writeTx_emitWrite (s : AllocationStore) (op : WriteOp) :
    if acceptsWrite s then sentCount (s.emitWrite op) = sentCount s + 1 else (s.emitWrite op).writeTx = s.writeTx := by
  unfold acceptsWrite sentCount AllocationStore.emitWrite
  cases hTx : s.writeTx with
  | none => simp [hTx]
  | some tx =>
    by_cases hClosed : tx.closed = true
    · simp [Channel.trySend, hClosed, hTx]
    by_cases hFull : tx.capacity ≤ tx.sent.length - tx.received
    all_goals simp [Channel.trySend, hClosed, hFull]

/-- It queues something exactly if it installs a peer and the writer accepts it. -/
theorem installPermissions_spec {s : AllocationStore} (hGet : s.get src = some a) (peers : List IpAddr) :
    (installPermissions env src peers s).1 =
        (if installed env.clock.now peers a.permissions = peers then .ok () else .error .limitExceeded) ∧
      if installed env.clock.now peers a.permissions ≠ [] ∧ acceptsWrite s = true then
        sentCount s < sentCount (installPermissions env src peers s).2
      else (installPermissions env src peers s).2.writeTx = s.writeTx := by
  induction peers generalizing s a with
  | nil => simp [installPermissions, installed]
  | cons peer peers ih =>
    rw [installPermissions, installed]
    cases hRoom : roomForPermission a.permissions peer with
    | false => simp [addPermission_full env.clock hGet hRoom]
    | true =>
      obtain ⟨op, hAdd⟩ := addPermission_room env.clock hGet hRoom
      rw [hAdd]
      have hEmit := writeTx_emitWrite { s with
        allocations := s.allocations.insert src { a with permissions := a.permissions.insert peer (.new env.clock.now) }
      } op
      dsimp only
      generalize hNext : AllocationStore.emitWrite _ op = next at hEmit ⊢
      change if acceptsWrite s then sentCount next = sentCount s + 1 else next.writeTx = s.writeTx at hEmit
      have hHere : next.get src = some { a with permissions := a.permissions.insert peer (.new env.clock.now) } := by
        rw [← hNext, AllocationStore.get, allocations_emitWrite, get_insert_self]
      obtain ⟨hResult, hTx⟩ := ih hHere
      refine ⟨by simpa using hResult, ?_⟩
      rw [if_pos rfl]
      cases hAccepts : acceptsWrite s with
      | false =>
        rw [hAccepts, if_neg (by simp)] at hEmit
        have hStill : acceptsWrite next = false := by rwa [acceptsWrite, hEmit]
        rw [if_neg (by simp)]
        simpa [hStill, hEmit] using hTx
      | true =>
        rw [if_pos hAccepts] at hEmit
        rw [if_pos ⟨List.cons_ne_nil _ _, rfl⟩]
        split_ifs at hTx
        · omega
        · simp only [sentCount, hTx] at hEmit ⊢
          omega

structure Admitted (p : Processor) (env : Surroundings) (msg : StunMessage) (raw : Bytes) (src : SocketAddr)
    (auth : AuthResolution) (a : Allocation) : Prop where
  authenticated : authenticate env msg src raw = .ok auth
  nonempty : peerIps msg ≠ []
  few : (peerIps msg).length ≤ maxPeers
  passed : p.refusePeers msg src (peerIps msg) = none
  home : p.store.get src = some a

theorem refused_of_not_admitted (h : ¬ ∃ auth a, Admitted p env msg raw src auth a) :
    ∃ actions, Refused src actions ∧ p.handleCreatePermission env msg raw src = (actions, p) := by
  rw [handleCreatePermission]
  cases hAuth : authenticate env msg src raw with
  | error actions => exact ⟨_, refused_authenticate hAuth, rfl⟩
  | ok auth =>
    dsimp only
    split_ifs with hEmpty hMany
    · exact ⟨_, refused_encodeError _ _, rfl⟩
    · exact ⟨_, refused_encodeError _ _, rfl⟩
    cases hRefuse : p.refusePeers msg src (peerIps msg) with
    | some actions => exact ⟨_, refused_refusePeers hRefuse, rfl⟩
    | none =>
      cases hGet : p.store.get src with
      | none =>
        obtain ⟨peer, peers, hPeers⟩ := List.exists_cons_of_ne_nil hEmpty
        rw [hPeers, installPermissions, addPermission_none env.clock hGet]
        exact ⟨_, refused_encodeError _ _, rfl⟩
      | some a => exact absurd ⟨auth, a, hAuth, hEmpty, Nat.not_lt.mp hMany, hRefuse, hGet⟩ h

namespace Admitted

variable {auth : AuthResolution} (h : Admitted p env msg raw src auth a)
include h

theorem handle : ∃ actions, p.handleCreatePermission env msg raw src =
      (actions, { p with store := (installPermissions env src (peerIps msg) p.store).2 }) ∧
    Answer src actions ∧
    (successReply src actions).isSome = decide (installed env.clock.now (peerIps msg) a.permissions = peerIps msg) := by
  have hResult := (@installPermissions_spec env src a p.store h.home (peerIps msg)).1
  rw [handleCreatePermission, h.authenticated]
  dsimp only
  rw [if_neg h.nonempty, if_neg (Nat.not_lt.mpr h.few), h.passed]
  dsimp only
  generalize installPermissions env src (peerIps msg) p.store = r at hResult
  obtain ⟨result, store⟩ := r
  dsimp only at hResult
  subst hResult
  split_ifs with hAll
  · obtain ⟨data, hReply⟩ := @signedReply_ok env msg (buildSuccessResponse .createPermission msg.transactionId)
      auth.key rfl (by simp [buildSuccessResponse])
    rw [hReply]
    refine ⟨_, rfl, answer_encodeOrDrop _, ?_⟩
    rw [encodeOrDrop, successReply_send (signedReply_spec rfl hReply).2, decide_eq_true hAll]
    rfl
  · refine ⟨_, rfl, answer_encodeError _ _, ?_⟩
    rw [(refusal_encodeError msg src _ _).successReply src, decide_eq_false hAll]
    rfl

end Admitted

theorem served_handleCreatePermission (hDecode : decode raw = .ok msg) (hRequest : msg.cls = .request)
    (hMethod : msg.method = .createPermission) :
    Served p env raw src (p.handleCreatePermission env msg raw src) := by
  by_cases hAdmitted : ∃ auth a, Admitted p env msg raw src auth a
  · obtain ⟨auth, a, h⟩ := hAdmitted
    obtain ⟨actions, hEq, hAnswer, -⟩ := h.handle
    obtain ⟨es, hRun, hEdits⟩ := @installPermissions_events env src p.store (peerIps msg)
    have hGet := @get_installPermissions env src a p.store h.home (peerIps msg) src
    rw [if_pos rfl] at hGet
    rw [hEq]
    exact ⟨hAnswer.handled, hAnswer.plain.owned, es,
      .edited ⟨hDecode, hRequest, hMethod, h.authenticated⟩ (.inr (.inl rfl)) h.home hRun hEdits hGet
        ⟨rfl, rfl, rfl, rfl, rfl⟩ (installs_permit h.home h.passed _) rfl hAnswer.plain⟩
  · obtain ⟨actions, hRefused, hEq⟩ := refused_of_not_admitted hAdmitted
    rw [hEq]
    exact hRefused.served

def permissionAt (s : AllocationStore) (c : SocketAddr) (ip : IpAddr) : Option Permission :=
  (s.get c).bind fun a => a.permissions.get ip

/-- A success installs every peer of the request and nothing else; any other answer changes nothing. -/
def Atomic (p : Processor) (msg : StunMessage) (src : SocketAddr) (now : Nat) (out : List Action × Processor) : Prop :=
  if (successReply src out.1).isSome then ∀ c ip, permissionAt out.2.store c ip =
    if c = src ∧ ip ∈ peerIps msg then some ⟨now + secs 300⟩ else permissionAt p.store c ip
  else (∀ c ip, permissionAt out.2.store c ip = permissionAt p.store c ip) ∧ out.2.store.writeTx = p.store.writeTx

/-- Full before the last peer of the request, after a peer that changes a permission or is queued. -/
def CutShort (p : Processor) (env : Surroundings) (msg : StunMessage) (raw : Bytes) (src : SocketAddr) : Prop :=
  ∃ auth a, Admitted p env msg raw src auth a ∧ installed env.clock.now (peerIps msg) a.permissions ≠ peerIps msg ∧
    ∃ ip ∈ installed env.clock.now (peerIps msg) a.permissions,
      a.permissions.get ip ≠ some (.new env.clock.now) ∨ acceptsWrite p.store = true

theorem Admitted.permissionAt_install {auth : AuthResolution} (h : Admitted p env msg raw src auth a) (c : SocketAddr)
    (ip : IpAddr) :
    permissionAt (installPermissions env src (peerIps msg) p.store).2 c ip =
      if c = src ∧ ip ∈ installed env.clock.now (peerIps msg) a.permissions then some (.new env.clock.now)
      else permissionAt p.store c ip := by
  rw [permissionAt, get_installPermissions h.home, permissionAt]
  by_cases hSrc : c = src
  · rw [if_pos hSrc, Option.bind_some, get_permit, hSrc, h.home]
    simp
  · rw [if_neg hSrc, if_neg (fun h => hSrc h.1)]

/-- CreatePermission is atomic exactly if the allocation does not run full in the middle of the request. -/
theorem create_permission_atomic_iff (p : Processor) (env : Surroundings) (msg : StunMessage) (raw : Bytes)
    (src : SocketAddr) :
    Atomic p msg src env.clock.now (p.handleCreatePermission env msg raw src) ↔ ¬ CutShort p env msg raw src := by
  by_cases hAdmitted : ∃ auth a, Admitted p env msg raw src auth a
  · obtain ⟨auth, a, h⟩ := hAdmitted
    obtain ⟨actions, hEq, -, hReply⟩ := h.handle
    have hTx := (@installPermissions_spec env src a p.store h.home (peerIps msg)).2
    have hPermission := h.permissionAt_install
    rw [hEq, Atomic]
    generalize (installPermissions env src (peerIps msg) p.store).2 = store at hTx hPermission
    by_cases hAll : installed env.clock.now (peerIps msg) a.permissions = peerIps msg
    · rw [if_pos (hReply.trans (decide_eq_true hAll))]
      refine iff_of_true ?_ ?_
      · rw [hAll] at hPermission
        exact hPermission
      · rintro ⟨_, a', h', hCut, -⟩
        cases h.home.symm.trans h'.home
        exact hCut hAll
    · rw [if_neg (by simp [hReply, hAll])]
      constructor
      · rintro ⟨hSame, hQueue⟩ ⟨_, a', h', -, ip, hIn, hChange⟩
        cases h.home.symm.trans h'.home
        obtain hNew | hAccepts := hChange
        · have hIp := hSame src ip
          rw [hPermission, if_pos ⟨rfl, hIn⟩, permissionAt, h.home] at hIp
          exact hNew hIp.symm
        · rw [if_pos ⟨List.ne_nil_of_mem hIn, hAccepts⟩, sentCount, sentCount, hQueue] at hTx
          exact Nat.lt_irrefl _ hTx
      · intro hNot
        have hStill (ip : IpAddr) (hIn : ip ∈ installed env.clock.now (peerIps msg) a.permissions) :
            a.permissions.get ip = some (.new env.clock.now) ∧ acceptsWrite p.store = false := by
          by_contra hBoth
          refine hNot ⟨auth, a, h, hAll, ip, hIn, ?_⟩
          simpa [imp_iff_not_or] using hBoth
        constructor
        · intro c ip
          rw [hPermission]
          split_ifs with hIn
          · rw [hIn.1, permissionAt, h.home]
            exact (hStill ip hIn.2).1.symm
          · rfl
        · rwa [if_neg] at hTx
          rintro ⟨hSome, hAccepts⟩
          obtain ⟨ip, hIn⟩ := List.exists_mem_of_ne_nil _ hSome
          cases hAccepts.symm.trans (hStill ip hIn).2
  · obtain ⟨actions, hRefused, hEq⟩ := refused_of_not_admitted hAdmitted
    rw [hEq, Atomic, hRefused.refusal.successReply src]
    refine iff_of_true ⟨fun _ _ => rfl, rfl⟩ ?_
    rintro ⟨auth, a, h, -⟩
    exact hAdmitted ⟨auth, a, h⟩

section

open Scenario

def otherPermissions : Nat → HashMap IpAddr Permission
  | 0 => .empty
  | n + 1 => (otherPermissions n).insert (.v4 ⟨UInt8.ofNat n, 0, 0, 1⟩) (.new 0)

def almostFull : Processor :=
  { aliceAllocated with store := { aliceAllocated.store with
      allocations := aliceAllocated.store.allocations.modify (client 1)
        fun a => { a with permissions := otherPermissions 255 } } }

def twoPeers : StunMessage := request .createPermission 2 "alice" [.xorPeerAddress (peer 1), .xorPeerAddress (peer 2)]

/-- The answer to a request for two peers is 486, and the first is permitted. -/
theorem half_of_request_installed : ¬ Atomic almostFull (arrived twoPeers) (client 1) (secs 1)
      (almostFull.handleCreatePermission bobEnv (arrived twoPeers) (wire twoPeers) (client 1)) := by
  have hSeen : successReply (client 1) (almostFull.handleCreatePermission bobEnv (arrived twoPeers) (wire twoPeers)
      (client 1)).1 = none ∧ permissionAt (almostFull.handleCreatePermission bobEnv (arrived twoPeers) (wire twoPeers)
      (client 1)).2.store (client 1) (peer 1).ip ≠ permissionAt almostFull.store (client 1) (peer 1).ip := by
    decide +kernel
  rw [Atomic, hSeen.1, if_neg (by simp)]
  exact fun hSame => hSeen.2 (hSame.1 _ _)

end

/-! ### ChannelBind -/

theorem bindTarget_spec (h : p.bindTarget msg src = .ok (channel, peerAddr)) :
    p.settings.policy.isForbidden peerAddr.ip = false ∧ p.peerFamilyMismatch src peerAddr.ip = false := by
  rw [bindTarget] at h
  split at h
  · dsimp only at h
    split_ifs at h with hValid hForbidden hFamily
    cases h
    exact ⟨Bool.eq_false_iff.mpr hForbidden, Bool.eq_false_iff.mpr hFamily⟩
  · cases h

theorem peerAddr_bindChannel {now : Nat} {ch : UInt16} {b : ChannelBinding}
    (hFree : channelFree a channel peerAddr = true)
    (hBound : (a.bindChannel now channel peerAddr).channelBindings.get ch = some b) :
    a.channelBindings.get ch = some b ∨ b.peerAddr = peerAddr := by
  rw [Allocation.bindChannel] at hBound
  split at hBound
  · next binding hThere =>
    rw [get_insert] at hBound
    split at hBound
    · cases hBound
      simp only [channelFree, hThere, Bool.and_eq_true] at hFree
      obtain ⟨hPeer, -⟩ : binding.peerAddr = peerAddr ∧ _ := by simpa using hFree.1
      exact .inr hPeer
    · exact .inl hBound
  · obtain ⟨-, rfl⟩ | hOld := get_insert_cases hBound
    · exact .inr rfl
    · exact .inl hOld

theorem permissions_bindChannel (a : Allocation) (now : Nat) (channel : UInt16) (peerAddr : SocketAddr) :
    (a.bindChannel now channel peerAddr).permissions = a.permissions.insert peerAddr.ip (.new now) := by
  obtain ⟨_, _, hBind⟩ := bindChannel_eq a now channel peerAddr
  rw [hBind]

theorem installs_bindChannel (hGet : p.store.get src = some a)
    (hTarget : p.bindTarget msg src = .ok (channel, peerAddr)) (hFree : channelFree a channel peerAddr = true)
    (now : Nat) : Installs p.settings.policy a (a.bindChannel now channel peerAddr) := by
  obtain ⟨hAllowed, hFamily⟩ := bindTarget_spec hTarget
  have hMatch := family_of_match hGet hFamily
  rw [← (sameOwner_bindChannel a now channel peerAddr).relayAddr] at hMatch
  constructor
  · intro ip perm hPerm
    rw [permissions_bindChannel, get_insert] at hPerm
    split at hPerm
    · next hEq => exact .inr (hEq ▸ ⟨hAllowed, hMatch⟩)
    · exact .inl hPerm
  · intro ch b hBound
    obtain hOld | hPeer := peerAddr_bindChannel hFree hBound
    · exact .inl hOld
    · rw [hPeer]
      exact .inr ⟨hAllowed, hMatch⟩

theorem served_handleChannelBind (hDecode : decode raw = .ok msg) (hRequest : msg.cls = .request)
    (hMethod : msg.method = .channelBind) : Served p env raw src (p.handleChannelBind env msg raw src) := by
  rw [handleChannelBind]
  cases hAuth : authenticate env msg src raw with
  | error actions => exact (refused_authenticate hAuth).served
  | ok auth =>
    have hAsked : Asked env raw src .channelBind msg auth := ⟨hDecode, hRequest, hMethod, hAuth⟩
    cases hTarget : p.bindTarget msg src with
    | error actions => exact (refuses_bindTarget _ hTarget).served
    | ok target =>
      obtain ⟨channel, peerAddr⟩ := target
      dsimp only
      have hServed : ∀ actions, Answer src actions → Served p env raw src (actions,
          { p with store := (p.store.addChannel env.clock src channel peerAddr).2 }) := by
        intro actions hAnswer
        cases hGet : p.store.get src with
        | none =>
          rw [addChannel_none env.clock hGet]
          exact hAnswer.served
        | some a =>
          have hGet' := @get_addChannel env.clock src a p.store hGet channel peerAddr src
          cases hFree : channelFree a channel peerAddr with
          | false =>
            obtain ⟨e, hEq⟩ := addChannel_refused env.clock hGet hFree
            rw [hEq]
            exact hAnswer.served
          | true =>
            rw [if_pos ⟨rfl, hFree⟩] at hGet'
            obtain ⟨es, hRun, hEdits⟩ := edits_of_event (addChannel_event p.store env.clock src channel peerAddr)
            exact ⟨hAnswer.handled, hAnswer.plain.owned, es, .edited hAsked (.inr (.inr rfl)) hGet hRun hEdits hGet'
              (sameOwner_bindChannel ..) (installs_bindChannel hGet hTarget hFree _) rfl hAnswer.plain⟩
      generalize p.store.addChannel env.clock src channel peerAddr = r at hServed ⊢
      obtain ⟨result, store⟩ := r
      cases result with
      | ok => exact hServed _ (answer_encodeOrDrop _)
      | error e => cases e <;> exact hServed _ (answer_encodeError _ _)

/-! ### Payloads -/

theorem handleSendIndication_spec : p.handleSendIndication env msg src = ([.none], p) ∨
      ∃ a peer data, p.store.get src = some a ∧ a.isExpired env.clock.now = false ∧
        a.hasPermission env.clock.now peer = true ∧ p.handleSendIndication env msg src =
          ([.sendViaRelay data peer a.relayAddr.port], { p with store := p.store.meter src (a.addBytes data.length) }) := by
  rw [handleSendIndication]
  split
  · dsimp only
    split
    · exact .inl rfl
    split
    · exact .inl rfl
    split
    · exact .inl rfl
    split
    · exact .inl rfl
    next a hGet =>
    split
    · exact .inl rfl
    next hLive =>
    split
    · exact .inl rfl
    next hPermission =>
    split
    · exact .inl rfl
    split
    · exact .inl rfl
    · exact .inr ⟨a, _, _, hGet, Bool.eq_false_iff.mpr hLive, by simpa using hPermission, rfl⟩
  · exact .inl rfl

theorem silent_handleSendIndication : Silent (p.handleSendIndication env msg src).1 := by
  obtain hEq | ⟨a, peer, data, -, -, -, hEq⟩ := @handleSendIndication_spec p env msg src
  · rw [hEq]
    exact silent_none
  · rw [hEq]
    exact silent_singleton nofun

theorem served_handleSendIndication : Served p env raw src (p.handleSendIndication env msg src) := by
  obtain hEq | ⟨a, peer, data, hGet, hLive, hPermission, hEq⟩ := @handleSendIndication_spec p env msg src
  · rw [hEq]
    exact served_none
  · rw [hEq]
    exact ⟨⟨repliesTo_singleton nofun, rfl⟩, by simp [Owned], _, .relayed hGet hLive (.inr hPermission) rfl rfl rfl⟩

theorem length_of_decodeChannelData {length : Nat}
    (h : decodeChannelData raw = .ok (channel, length)) : 4 + length ≤ raw.length := by
  rw [decodeChannelData] at h
  dsimp only at h
  split_ifs at h
  cases h
  omega

theorem channelDataDecision_spec : p.channelDataDecision env raw src = (none, p) ∨
      ∃ a peer length, p.store.get src = some a ∧ a.isExpired env.clock.now = false ∧
        (∃ ch, a.getChannelPeer env.clock.now ch = some peer) ∧ 4 + length ≤ raw.length ∧
        p.channelDataDecision env raw src = (some (4, length, peer, a.relayAddr.port),
          { p with store := p.store.meter src (a.addBytes length) }) := by
  rw [channelDataDecision]
  split
  · exact .inl rfl
  next channel length hDecode =>
  split
  · exact .inl rfl
  next a hGet =>
  split
  · exact .inl rfl
  next hLive =>
  split
  · exact .inl rfl
  next peer hPeer =>
  split
  · exact .inl rfl
  split
  · exact .inl rfl
  · exact .inr ⟨a, peer, length, hGet, Bool.eq_false_iff.mpr hLive, ⟨channel, hPeer⟩,
      length_of_decodeChannelData hDecode, rfl⟩

theorem served_processChannelData : Served p env raw src (p.processChannelData env raw src) := by
  rw [processChannelData]
  obtain hEq | ⟨a, peer, length, hGet, hLive, hPeer, hLength, hEq⟩ := @channelDataDecision_spec p env raw src
  · rw [hEq]
    exact served_none
  rw [hEq]
  refine ⟨⟨repliesTo_singleton nofun, rfl⟩, by simp [Owned], _, .relayed hGet hLive (.inl hPeer) ?_ rfl rfl⟩
  rw [Action.payload, Bytes.length_slice hLength]

/-! ### Allocate -/

theorem sameTables_giveBack (port : UInt16) (issued : Option Token) : SameTables p.store (p.giveBack port issued).store := by
  have hRelease (s : AllocationStore) : SameTables s (s.updatePool (fun pool => pool.release port) (s.poolIdForPort port)) :=
    .updatePool _ _ _
  cases issued with
  | none => exact hRelease p.store
  | some token =>
    exact .trans (.updatePool p.store (fun pool => pool.cancelReservation token) (p.store.poolIdForPort port)) (hRelease _)

variable {issued : Option Token}

theorem announceUdp_spec : ∃ actions, p.announceUdp env msg src auth relayAddr lifetime issued =
      (actions, { p with activeAllocations := p.activeAllocations + 1 }) ∧ RepliesTo src actions ∧ Plain actions := by
  rw [announceUdp]
  dsimp only
  split
  · exact ⟨_, rfl, silent_none.repliesTo src, plain_none⟩
  · exact ⟨_, rfl, repliesTo_cons (fun _ _ h => nomatch h) (repliesTo_send _ (silent_nil.repliesTo src)),
      plain_cons rfl (plain_cons rfl plain_nil)⟩

theorem announceTcp_spec : ∃ actions, p.announceTcp env msg src auth relayAddr lifetime = (actions,
      { p with store := (p.store.setTransport src .tcp).2, activeAllocations := p.activeAllocations + 1 }) ∧
        RepliesTo src actions ∧ Plain actions := by
  rw [announceTcp]
  split
  · exact ⟨_, rfl, silent_none.repliesTo src, plain_none⟩
  · exact ⟨_, rfl, repliesTo_cons (fun _ _ h => nomatch h) (repliesTo_send _ (silent_nil.repliesTo src)),
      plain_cons rfl (plain_cons rfl plain_nil)⟩

theorem length_mintId (s : AllocationStore) : (Utf8.encode s.mintId.1).length ≤ ticketIdRoom := by
  have hLen := Utf8.utf8Len_le (Text.padded 16 16 s.nextId.toNat)
  rw [Text.length_padded] at hLen
  rw [AllocationStore.mintId, Utf8.length_encode_ofList, ticketIdRoom]
  omega

theorem get_created {clock : Clock} {req : CreateRequest} {s s' : AllocationStore}
    (h : s.createForIdentity clock req = (.ok (), s')) :
    s.get req.clientAddr = none ∧ ∃ a, a.clientAddr = req.clientAddr ∧ a.permissions = .empty ∧
      a.channelBindings = .empty ∧ (Utf8.encode a.allocationId).length ≤ ticketIdRoom ∧ TableStep (.opened a) s s' ∧
      s'.get req.clientAddr = some a := by
  have hEvent := create_event s clock req
  rw [h, if_pos rfl] at hEvent
  obtain ⟨hVacant, hStep⟩ := hEvent
  have hFields : (req.allocation clock s.mintId.1).clientAddr = req.clientAddr ∧
      (req.allocation clock s.mintId.1).permissions = .empty ∧
      (req.allocation clock s.mintId.1).channelBindings = .empty ∧
      (req.allocation clock s.mintId.1).allocationId = s.mintId.1 := ⟨rfl, rfl, rfl, rfl⟩
  generalize req.allocation clock s.mintId.1 = a at hStep hFields
  obtain ⟨hClient, hPermissions, hChannels, hId⟩ := hFields
  exact ⟨hVacant, a, hClient, hPermissions, hChannels, hId ▸ length_mintId s, hStep, hClient ▸ hStep.get_opened⟩

section

variable (hAsked : Asked env raw src .allocate msg auth)
include hAsked

theorem served_allocateUdpAt {drawn : AllocationStore} (hTables : SameTables p.store drawn)
    (family : RelayFamily) (port : UInt16) (issued : Option Token) :
    Served p env raw src ({ p with store := drawn }.allocateUdpAt env msg src auth family port issued) := by
  rw [allocateUdpAt]
  cases allocateLifetime { p with store := drawn } msg auth with
  | none => exact (answer_encodeError _ _).idle (hTables.trans (@sameTables_giveBack { p with store := drawn } port issued))
  | some lifetime =>
    dsimp only
    generalize relayAddress { p with store := drawn } family port = relayAddr
    have hSrc : (createRequest auth src relayAddr lifetime).clientAddr = src := rfl
    generalize createRequest auth src relayAddr lifetime = req at hSrc ⊢
    cases hCreate : drawn.createForIdentity env.clock req with
    | mk result store =>
      cases result with
      | error e =>
        have hSame := create_event drawn env.clock req
        rw [hCreate, if_neg nofun] at hSame
        exact (answer_createRefused e).idle
          (hTables.trans (.trans hSame (@sameTables_giveBack { p with store } port issued)))
      | ok =>
        obtain ⟨hVacant, a, hClient, hPermissions, hChannels, hShort, hStep, hGet⟩ := get_created hCreate
        obtain ⟨actions, hEq, hReplies, hPlain⟩ :=
          @announceUdp_spec { p with store } env msg src auth lifetime relayAddr issued
        rw [hSrc] at hVacant hClient hGet
        dsimp only
        rw [hEq]
        refine ⟨⟨hReplies, rfl⟩, hPlain.owned, _, .created hAsked ((hTables.get src).symm.trans hVacant) hClient
          (.single (.of_same hTables hStep)) (.inl rfl) ?_ hShort rfl hPlain⟩
        intro a' hGet'
        cases hGet.symm.trans hGet'
        exact ⟨hPermissions, hChannels⟩

theorem served_allocateUdp : Served p env raw src (p.allocateUdp env msg src auth) := by
  rw [allocateUdp]
  cases hRequest : p.portRequest msg src with
  | error actions => exact (refuses_portRequest _ hRequest).served
  | ok request =>
    obtain ⟨req, family⟩ := request
    dsimp only
    have hTables : SameTables p.store (p.drawPort env auth.tenantId req).2.store :=
      .updatePool p.store (fun pool => (req.run env pool).2) (p.store.poolId auth.tenantId)
    rw [drawPort] at hTables ⊢
    cases (req.run env (p.store.pool auth.tenantId)).1 with
    | none => exact (answer_encodeError _ _).idle hTables
    | some drawn => exact served_allocateUdpAt hAsked hTables family drawn.1 drawn.2

theorem served_allocateTcpAt {drawn : AllocationStore} (hTables : SameTables p.store drawn)
    (family : RelayFamily) (lifetime : UInt32) (port : UInt16) :
    Served p env raw src ({ p with store := drawn }.allocateTcpAt env msg src auth family lifetime port) := by
  rw [allocateTcpAt]
  split
  · exact (answer_encodeError _ _).idle (hTables.trans (@sameTables_giveBack { p with store := drawn } port none))
  generalize relayAddress { p with store := drawn } family port = relayAddr
  have hSrc : (createRequest auth src relayAddr lifetime).clientAddr = src := rfl
  generalize createRequest auth src relayAddr lifetime = req at hSrc ⊢
  cases hCreate : drawn.createForIdentity env.clock req with
  | mk result store =>
    cases result with
    | error e =>
      have hSame := create_event drawn env.clock req
      rw [hCreate, if_neg nofun] at hSame
      exact (answer_createRefused e).idle (hTables.trans (.trans hSame (@sameTables_giveBack { p with store } port none)))
    | ok =>
      obtain ⟨hVacant, a, hClient, hPermissions, hChannels, hShort, hStep, hGet⟩ := get_created hCreate
      obtain ⟨actions, hEq, hReplies, hPlain⟩ := @announceTcp_spec { p with store } env msg src auth lifetime relayAddr
      rw [hSrc] at hVacant hClient hGet
      have hEdit := setTransport_event store hGet .tcp
      dsimp only
      rw [hEq]
      refine ⟨⟨hReplies, rfl⟩, hPlain.owned, _, .created hAsked ((hTables.get src).symm.trans hVacant) hClient
        (.cons (.of_same hTables hStep) (.single hEdit)) (.inr rfl) ?_ hShort rfl hPlain⟩
      intro a' hGet'
      have hSet : (store.setTransport src .tcp).2.get src = some { a with transport := .tcp } := by
        rw [AllocationStore.setTransport, show store.allocations.get src = some a from hGet]
        exact get_insert_self ..
      cases hSet.symm.trans hGet'
      exact ⟨hPermissions, hChannels⟩

theorem served_handleAllocateTcp : Served p env raw src (p.handleAllocateTcp env msg src auth) := by
  rw [handleAllocateTcp]
  cases hFamily : p.tcpFamily msg src with
  | error actions => exact (refuses_tcpFamily _ hFamily).served
  | ok family =>
    cases p.allocateLifetime msg auth with
    | none => exact (answer_encodeError _ _).served
    | some lifetime =>
      dsimp only
      have hTables : SameTables p.store
          (p.store.updatePool (fun pool => pool.allocate.2) (p.store.poolId auth.tenantId)) := .updatePool _ _ _
      cases (p.store.pool auth.tenantId).allocate.1 with
      | error e => exact (answer_encodeError _ _).idle hTables
      | ok port => exact served_allocateTcpAt hAsked hTables family lifetime port

end

theorem served_handleAllocate {ingressTcp : Bool} (hDecode : decode raw = .ok msg)
    (hRequest : msg.cls = .request) (hMethod : msg.method = .allocate) :
    Served p env raw src (p.handleAllocate env msg raw src ingressTcp) := by
  rw [handleAllocate]
  cases hAuth : authenticate env msg src raw with
  | error actions => exact (refused_authenticate hAuth).served
  | ok auth =>
    have hAsked : Asked env raw src .allocate msg auth := ⟨hDecode, hRequest, hMethod, hAuth⟩
    dsimp only
    cases hTransport : p.allocateTransport env msg src auth ingressTcp with
    | error actions => exact (refuses_allocateTransport _ hTransport).served
    | ok wantTcp =>
      cases wantTcp with
      | true => exact served_handleAllocateTcp hAsked
      | false => exact served_allocateUdp hAsked

/-! ### Dispatch -/

theorem served_dispatchStun {ingressTcp : Bool} (hDecode : decode raw = .ok msg) :
    Served p env raw src (p.dispatchStun env msg raw src ingressTcp) := by
  rw [dispatchStun]
  split
  · next actions hEarly =>
    split at hEarly
    · split at hEarly
      · next hReject =>
        cases hEarly
        exact (answer_rejectUnknown hReject).served
      · exact (answer_redirect hEarly).served
    · cases hEarly
  · split
    · exact answer_handleBinding.served
    · next hRequest hMethod =>
      split
      · exact (answer_encodeError _ _).served
      · exact served_handleAllocate hDecode hRequest hMethod
    · next hRequest hMethod =>
      split
      · exact (answer_encodeError _ _).served
      · exact served_handleRefresh hDecode hRequest hMethod
    · next hRequest hMethod =>
      split
      · exact (answer_encodeError _ _).served
      · exact served_handleCreatePermission hDecode hRequest hMethod
    · next hRequest hMethod =>
      split
      · exact (answer_encodeError _ _).served
      · exact served_handleChannelBind hDecode hRequest hMethod
    · exact served_handleSendIndication
    · exact served_none

theorem PacketOutcome.setTransactions {es : List TableEvent} {p' : Processor}
    (h : PacketOutcome p env raw src es actions p') (cache : UdpTransactions) :
    PacketOutcome p env raw src es actions { p' with udpTransactions := cache } := by
  cases h with
  | idle hTables hGauge hPlain => exact .idle hTables hGauge hPlain
  | relayed hGet hLive hAllowed hPayload hStore hGauge => exact .relayed hGet hLive hAllowed hPayload hStore hGauge
  | edited hAsked hMethod hGet hRun hEdits hGet' hOwner hInstalls hGauge hPlain =>
    exact .edited hAsked hMethod hGet hRun hEdits hGet' hOwner hInstalls hGauge hPlain
  | closed hAsked hStep hGauge hPlain => exact .closed hAsked hStep hGauge hPlain
  | moved hAsked hVacant hTarget hGet hRun hRest hTables hGauge hPlain =>
    exact .moved hAsked hVacant hTarget hGet hRun hRest hTables hGauge hPlain
  | created hAsked hVacant hClient hRun hRest hTables hShort hGauge hPlain =>
    exact .created hAsked hVacant hClient hRun hRest hTables hShort hGauge hPlain

theorem outcome_dropped : RepliesTo src [.none] ∧ HasOutcome p env raw src ([.none], p) :=
  ⟨answer_none.repliesTo, served_none.outcome⟩

theorem outcome_processStun (ingressTcp : Bool) : RepliesTo src (p.processStun env raw src ingressTcp).1 ∧
    HasOutcome p env raw src (p.processStun env raw src ingressTcp) := by
  rw [processStun]
  split
  · exact outcome_dropped
  next msg hDecode =>
  split
  · dsimp only
    split
    · exact ⟨repliesTo_send _ (silent_nil.repliesTo src), _, .idle (.refl _) rfl (plain_cons rfl plain_nil)⟩
    · exact ⟨answer_none.repliesTo, _, .idle (.refl _) rfl plain_none⟩
    · have hServed := @served_dispatchStun p env msg raw src false hDecode
      obtain ⟨es, hOutcome⟩ := hServed.outcome
      rw [processFresh]
      exact ⟨hServed.repliesTo, es, hOutcome.setTransactions _⟩
  · have hServed := @served_dispatchStun p env msg raw src ingressTcp hDecode
    exact ⟨hServed.repliesTo, hServed.outcome⟩

theorem outcome_processImpl (ingressTcp : Bool) : RepliesTo src (p.processImpl env raw src ingressTcp).1 ∧
    HasOutcome p env raw src (p.processImpl env raw src ingressTcp) := by
  have hChannel := @served_processChannelData p env raw src
  rw [processImpl]
  split
  · exact outcome_dropped
  split
  · exact outcome_dropped
  split
  · split
    · exact outcome_dropped
    · exact ⟨hChannel.repliesTo, hChannel.outcome⟩
  split
  · exact outcome_dropped
  · exact outcome_processStun ingressTcp

theorem outcome_processSlice : RepliesTo src (p.processSlice env raw src).1 ∧
    HasOutcome p env raw src (p.processSlice env raw src) := by
  rw [processSlice]
  split
  · split
    · exact outcome_dropped
    split
    · exact outcome_dropped
    obtain hEq | ⟨a, peer, length, hGet, hLive, hPeer, hLength, hEq⟩ := @channelDataDecision_spec p env raw src
    · rw [hEq]
      exact outcome_dropped
    · rw [hEq]
      exact ⟨repliesTo_singleton nofun, _, .relayed hGet hLive (.inl hPeer) rfl rfl rfl⟩
  · exact outcome_processImpl false

theorem replies_to_source : RepliesTo src (p.process env raw src).1 ∧ RepliesTo src (p.processTcpControl env raw src).1 ∧
    RepliesTo src (p.processSlice env raw src).1 :=
  ⟨(outcome_processImpl false).1, (outcome_processImpl true).1, outcome_processSlice.1⟩

end Handlers

end Turna.Relay
