import Turna.Relay.Refreshing

/-! # Who controls an allocation

A request is authenticated on its own, and the allocation is found by source address or by ticket. No
handler compares the two, so an allocation is controlled by its owner exactly where the requests that
reach it are the owner's.
-/

namespace Turna.Relay
open Lib Net Crypto Stun Auth Session Transport HashMap Processor Scenario

def permit (now : Nat) : List IpAddr → HashMap IpAddr Permission → HashMap IpAddr Permission
  | [], permissions => permissions
  | peer :: peers, permissions =>
    if roomForPermission permissions peer then permit now peers (permissions.insert peer (.new now)) else permissions

def installed (now : Nat) : List IpAddr → HashMap IpAddr Permission → List IpAddr
  | [], _ => []
  | peer :: peers, permissions =>
    if roomForPermission permissions peer then peer :: installed now peers (permissions.insert peer (.new now)) else []

theorem get_permit (now : Nat) (peers : List IpAddr) (permissions : HashMap IpAddr Permission) (ip : IpAddr) :
    (permit now peers permissions).get ip =
      if ip ∈ installed now peers permissions then some (.new now) else permissions.get ip := by
  induction peers generalizing permissions with
  | nil => rfl
  | cons peer peers ih =>
    rw [permit, installed]
    split
    · rw [ih, get_insert]
      by_cases hEq : ip = peer
      · rw [if_pos hEq, hEq, ite_self, if_pos List.mem_cons_self]
      · rw [if_neg hEq]
        simp only [List.mem_cons, hEq, false_or]
    · rfl

theorem installed_subset (now : Nat) (peers : List IpAddr) (permissions : HashMap IpAddr Permission) :
    installed now peers permissions ⊆ peers := by
  induction peers generalizing permissions with
  | nil => exact fun _ h => h
  | cons peer peers ih =>
    rw [installed]
    split
    · intro ip hMem
      obtain rfl | hMem := List.mem_cons.mp hMem
      · exact List.mem_cons_self
      · exact List.mem_cons_of_mem _ (ih _ hMem)
    · exact fun _ h => absurd h List.not_mem_nil

theorem installPermissions_none {env : Surroundings} {src : SocketAddr} {s : AllocationStore}
    (hGet : s.get src = none) (peers : List IpAddr) : (installPermissions env src peers s).2 = s := by
  cases peers with
  | nil => rfl
  | cons peer peers => rw [installPermissions, addPermission_none env.clock hGet]

theorem get_installPermissions {env : Surroundings} {src : SocketAddr} {a : Allocation} {s : AllocationStore}
    (hGet : s.get src = some a) (peers : List IpAddr) (c : SocketAddr) :
    (installPermissions env src peers s).2.get c =
      if c = src then some { a with permissions := permit env.clock.now peers a.permissions } else s.get c := by
  induction peers generalizing s a with
  | nil =>
    rw [installPermissions, permit]
    split_ifs with hEq
    · rw [hEq, hGet]
    · rfl
  | cons peer peers ih =>
    rw [installPermissions, permit]
    cases hRoom : roomForPermission a.permissions peer with
    | false =>
      rw [addPermission_full env.clock hGet hRoom]
      split_ifs with hEq hFalse
      · cases hFalse
      · rw [hEq, hGet]
      · rfl
    | true =>
      obtain ⟨op, hAdd⟩ := addPermission_room env.clock hGet hRoom
      rw [hAdd]
      dsimp only
      rw [ih (by rw [AllocationStore.get, allocations_emitWrite, get_insert_self]), if_pos rfl]
      split_ifs with hEq
      · rfl
      · rw [AllocationStore.get, allocations_emitWrite, get_insert_ne _ _ hEq]
        rfl

theorem get_addChannel {clock : Clock} {src : SocketAddr} {a : Allocation} {s : AllocationStore}
    (hGet : s.get src = some a) (channel : UInt16) (peerAddr c : SocketAddr) :
    (s.addChannel clock src channel peerAddr).2.get c =
      if c = src ∧ channelFree a channel peerAddr = true then some (a.bindChannel clock.now channel peerAddr)
      else s.get c := by
  cases hFree : channelFree a channel peerAddr with
  | false =>
    obtain ⟨e, hEq⟩ := addChannel_refused clock hGet hFree
    rw [hEq, if_neg (fun h => Bool.false_ne_true h.2)]
  | true =>
    rw [AllocationStore.get, (addChannel_free clock hGet hFree).2, get_insert]
    simp only [and_true]
    rfl

/-! ## Who controls an allocation -/

def identityOf (auth : AuthResolution) : UserKey := (auth.realm, auth.tenantId, auth.subject)

structure SameControl (a a' : Allocation) : Prop where
  expiresAt : a'.expiresAt = a.expiresAt
  clientAddr : a'.clientAddr = a.clientAddr
  permissions : ∀ ip, a'.permissions.get ip = a.permissions.get ip
  channelBindings : ∀ channel, a'.channelBindings.get channel = a.channelBindings.get channel
  channelsReverse : ∀ peer, a'.channelsReverse.get peer = a.channelsReverse.get peer

def Intact (a : Allocation) (s : AllocationStore) (c : SocketAddr) : Prop := ∃ a', s.get c = some a' ∧ SameControl a a'

theorem SameControl.refl (a : Allocation) : SameControl a a := ⟨rfl, rfl, fun _ => rfl, fun _ => rfl, fun _ => rfl⟩

theorem intact_of_get {a : Allocation} {s : AllocationStore} {c : SocketAddr} (h : s.get c = some a) : Intact a s c :=
  ⟨a, h, .refl a⟩

theorem intact_iff {a a' : Allocation} {s : AllocationStore} {c : SocketAddr} (h : s.get c = some a') :
    Intact a s c ↔ SameControl a a' := by
  refine ⟨?_, fun hSame => ⟨a', h, hSame⟩⟩
  rintro ⟨b, hGet, hSame⟩
  rw [h] at hGet
  cases hGet
  exact hSame

inductive Control where
  | refresh
  | createPermission
  | channelBind
  | connect
  deriving DecidableEq

section Handlers

variable (p : Processor) (env : Surroundings) (msg : StunMessage) (raw : Bytes) (src : SocketAddr)

def Control.handle : Control → Processor
  | .refresh => (p.handleRefresh env msg raw src).2
  | .createPermission => (p.handleCreatePermission env msg raw src).2
  | .channelBind => (p.handleChannelBind env msg raw src).2
  | .connect => p

/-- The request changes the allocation at `c`, or a connection through it may proceed. -/
def Control.Affects (kind : Control) (c : SocketAddr) (a : Allocation) : Prop :=
  ¬ Intact a (kind.handle p env msg raw src).store c ∨
    kind = .connect ∧ c = src ∧ ∃ peer key port, p.connectDecision env msg raw src = .proceed peer key port

/-- The channel is bound and its peer permitted, both until when this request would set it. -/
def boundAlready (a : Allocation) (now : Nat) (channel : UInt16) (peerAddr : SocketAddr) : Prop :=
  (a.channelBindings.get channel).map ChannelBinding.expiresAt = some (now + channelLifetime) ∧
    a.permissions.get peerAddr.ip = some (.new now)

/-- The request, once authenticated, reaches the allocation `a` at `c` and is not idle on it. -/
def Control.Reaches (auth : AuthResolution) (c : SocketAddr) (a : Allocation) : Control → Prop
  | .refresh => ∃ lifetime, p.refreshLifetime msg src auth = .ok lifetime ∧ p.refreshTarget env msg src = some c ∧
      ¬ (c = src ∧ lifetime ≠ 0 ∧ a.expiresAt = env.clock.now + secs lifetime.toNat)
  | .createPermission => c = src ∧ (peerIps msg).length ≤ maxPeers ∧ p.refusePeers msg src (peerIps msg) = none ∧
      ∃ ip ∈ installed env.clock.now (peerIps msg) a.permissions, a.permissions.get ip ≠ some (.new env.clock.now)
  | .channelBind => c = src ∧ ∃ channel peerAddr, p.bindTarget msg src = .ok (channel, peerAddr) ∧
      channelFree a channel peerAddr = true ∧ ¬ boundAlready a env.clock.now channel peerAddr
  | .connect => c = src ∧ a.transport = .tcp ∧
      ∃ peer, msg.getXorPeerAddress = some peer ∧ a.hasPermission env.clock.now peer = true

end Handlers

section Affects

variable {p : Processor} {env : Surroundings} {msg : StunMessage} {raw : Bytes} {src c : SocketAddr}
  {auth : AuthResolution} {a : Allocation}

theorem intact_refresh (hGet : p.store.get c = some a) {lifetime : UInt32} (key : Bytes) :
    Intact a (p.refreshGranted env msg src key lifetime).2.store c ↔
      ¬ (p.refreshTarget env msg src = some c ∧
        ¬ (c = src ∧ lifetime ≠ 0 ∧ a.expiresAt = env.clock.now + secs lifetime.toNat)) := by
  cases hTarget : p.refreshTarget env msg src with
  | none =>
    rw [refreshGranted_none hTarget]
    exact iff_of_true (intact_of_get hGet) (fun h => Option.some_ne_none _ h.1.symm)
  | some t =>
    obtain ⟨b, hTargetGet, hAfter⟩ := @get_refreshGranted p env msg key src lifetime t hTarget
    have hHere := hAfter c
    by_cases hSrc : c = src
    · subst hSrc
      rw [refreshTarget_some hGet] at hTarget
      cases hTarget
      rw [hGet] at hTargetGet
      cases hTargetGet
      rw [if_pos rfl, arrivedFrom, if_pos rfl] at hHere
      by_cases hZero : lifetime = 0
      · rw [if_pos hZero] at hHere
        refine iff_of_false ?_ (fun h => h ⟨rfl, fun hIdle => hIdle.2.1 hZero⟩)
        rintro ⟨a', hGet', -⟩
        rw [hHere] at hGet'
        cases hGet'
      · rw [if_neg hZero] at hHere
        rw [intact_iff hHere]
        refine ⟨fun hSame h => h.2 ⟨rfl, hZero, hSame.expiresAt.symm⟩, fun h => ?_⟩
        rw [not_and, not_not] at h
        exact ⟨(h rfl).2.2.symm, rfl, fun _ => rfl, fun _ => rfl, fun _ => rfl⟩
    · rw [if_neg hSrc] at hHere
      by_cases hOld : c = t
      · rw [if_pos hOld] at hHere
        refine iff_of_false ?_ (fun h => h ⟨by rw [hOld], fun hIdle => hSrc hIdle.1⟩)
        rintro ⟨a', hGet', -⟩
        rw [hHere] at hGet'
        cases hGet'
      · rw [if_neg hOld, hGet] at hHere
        exact iff_of_true (intact_of_get hHere) (fun h => hOld (Option.some.inj h.1).symm)

theorem intact_permit (hGet : p.store.get c = some a) (peers : List IpAddr) :
    Intact a (installPermissions env src peers p.store).2 c ↔
      ¬ (c = src ∧ ∃ ip ∈ installed env.clock.now peers a.permissions,
        a.permissions.get ip ≠ some (.new env.clock.now)) := by
  by_cases hSrc : c = src
  · subst hSrc
    have hAfter := @get_installPermissions env c a p.store hGet peers c
    rw [if_pos rfl] at hAfter
    rw [intact_iff hAfter]
    constructor
    · rintro hSame ⟨-, ip, hMem, hNe⟩
      have hEq := hSame.permissions ip
      rw [get_permit, if_pos hMem] at hEq
      exact hNe hEq.symm
    · intro h
      refine ⟨rfl, rfl, fun ip => ?_, fun _ => rfl, fun _ => rfl⟩
      rw [get_permit]
      split_ifs with hMem
      · by_contra hNe
        exact h ⟨rfl, ip, hMem, fun hEq => hNe hEq.symm⟩
      · rfl
  · refine iff_of_true (intact_of_get ?_) (fun h => hSrc h.1)
    cases hHome : p.store.get src with
    | none =>
      rw [installPermissions_none hHome]
      exact hGet
    | some b =>
      rw [get_installPermissions hHome, if_neg hSrc]
      exact hGet

theorem sameControl_bindChannel {channel : UInt16} {peerAddr : SocketAddr} {now : Nat} :
    SameControl a (a.bindChannel now channel peerAddr) ↔ boundAlready a now channel peerAddr := by
  rw [boundAlready, Allocation.bindChannel]
  cases hBound : a.channelBindings.get channel with
  | none =>
    refine iff_of_false (fun hSame => ?_) (fun h => by cases h.1)
    have hEq := hSame.channelBindings channel
    rw [get_insert_self, hBound] at hEq
    cases hEq
  | some b =>
    constructor
    · intro hSame
      have hChannel := hSame.channelBindings channel
      have hPermission := hSame.permissions peerAddr.ip
      rw [get_insert_self, hBound] at hChannel
      rw [get_insert_self] at hPermission
      exact ⟨congrArg (Option.map ChannelBinding.expiresAt) hChannel.symm, hPermission.symm⟩
    · rintro ⟨hExpires, hPermission⟩
      refine ⟨rfl, rfl, fun ip => ?_, fun ch => ?_, fun _ => rfl⟩
      · dsimp only
        rw [get_insert]
        split_ifs with hEq
        · rw [hEq, hPermission]
        · rfl
      · dsimp only
        rw [get_insert]
        split_ifs with hEq
        · rw [hEq, hBound, ← Option.some.inj hExpires]
        · rfl

theorem intact_bind (hGet : p.store.get c = some a) (channel : UInt16) (peerAddr : SocketAddr) :
    Intact a (p.store.addChannel env.clock src channel peerAddr).2 c ↔
      ¬ (c = src ∧ channelFree a channel peerAddr = true ∧ ¬ boundAlready a env.clock.now channel peerAddr) := by
  cases hHome : p.store.get src with
  | none =>
    rw [addChannel_none env.clock hHome]
    refine iff_of_true (intact_of_get hGet) (fun h => ?_)
    rw [h.1, hHome] at hGet
    cases hGet
  | some b =>
    have hAfter := @get_addChannel env.clock src b p.store hHome channel peerAddr c
    by_cases hSrc : c = src
    · subst hSrc
      rw [hGet] at hHome
      cases hHome
      by_cases hFree : channelFree a channel peerAddr = true
      · rw [if_pos ⟨rfl, hFree⟩] at hAfter
        rw [intact_iff hAfter, sameControl_bindChannel]
        refine ⟨fun h hNot => hNot.2.2 h, fun h => ?_⟩
        by_contra hNot
        exact h ⟨rfl, hFree, hNot⟩
      · rw [if_neg (fun h => hFree h.2), hGet] at hAfter
        exact iff_of_true (intact_of_get hAfter) (fun h => hFree h.2.1)
    · rw [if_neg (fun h => hSrc h.1), hGet] at hAfter
      exact iff_of_true (intact_of_get hAfter) (fun h => hSrc h.1)

theorem store_handleCreatePermission (hAuth : authenticate env msg src raw = .ok auth) :
    (p.handleCreatePermission env msg raw src).2.store =
      if (peerIps msg).length ≤ maxPeers ∧ p.refusePeers msg src (peerIps msg) = none then
        (installPermissions env src (peerIps msg) p.store).2
      else p.store := by
  rw [handleCreatePermission, hAuth]
  dsimp only
  by_cases hEmpty : peerIps msg = []
  · rw [if_pos hEmpty, hEmpty]
    split_ifs <;> rfl
  rw [if_neg hEmpty]
  by_cases hMany : maxPeers < (peerIps msg).length
  · rw [if_pos hMany, if_neg (fun h => Nat.not_le.mpr hMany h.1)]
  rw [if_neg hMany]
  cases hRefuse : p.refusePeers msg src (peerIps msg) with
  | some actions => rw [if_neg (fun h => by cases h.2)]
  | none =>
    rw [if_pos ⟨Nat.not_lt.mp hMany, rfl⟩]
    generalize installPermissions env src (peerIps msg) p.store = r
    obtain ⟨result, store⟩ := r
    cases result with
    | ok => rfl
    | error e => cases e <;> rfl

theorem store_handleChannelBind (hAuth : authenticate env msg src raw = .ok auth) :
    (p.handleChannelBind env msg raw src).2.store =
      match p.bindTarget msg src with
      | .ok (channel, peerAddr) => (p.store.addChannel env.clock src channel peerAddr).2
      | .error _ => p.store := by
  rw [handleChannelBind, hAuth]
  cases p.bindTarget msg src with
  | error actions => rfl
  | ok target =>
    dsimp only
    generalize p.store.addChannel env.clock src target.1 target.2 = r
    obtain ⟨result, store⟩ := r
    cases result with
    | ok => rfl
    | error e => cases e <;> rfl

theorem connectDecision_proceed (hGet : p.store.get src = some a) (hAuth : authenticate env msg src raw = .ok auth) :
    (∃ peer key port, p.connectDecision env msg raw src = .proceed peer key port) ↔
      a.transport = .tcp ∧ ∃ peer, msg.getXorPeerAddress = some peer ∧ a.hasPermission env.clock.now peer = true := by
  rw [connectDecision, hAuth]
  cases msg.getXorPeerAddress with
  | none =>
    refine iff_of_false ?_ (fun h => by obtain ⟨-, _, h, -⟩ := h; cases h)
    rintro ⟨_, _, _, h⟩
    cases h
  | some peer =>
    rw [hGet]
    dsimp only
    by_cases hTcp : a.transport = .tcp
    · rw [if_neg (fun h => h hTcp)]
      cases hPermission : a.hasPermission env.clock.now peer with
      | false =>
        refine iff_of_false ?_ ?_
        · rintro ⟨_, _, _, h⟩
          cases h
        rintro ⟨-, peer', hPeer, hHas⟩
        cases hPeer
        rw [hPermission] at hHas
        cases hHas
      | true => exact iff_of_true ⟨_, _, _, rfl⟩ ⟨hTcp, peer, rfl, hPermission⟩
    · rw [if_pos hTcp]
      refine iff_of_false ?_ (fun h => hTcp h.1)
      rintro ⟨_, _, _, h⟩
      cases h

theorem handle_unauthenticated {actions : List Action} (hAuth : authenticate env msg src raw = .error actions)
    (kind : Control) : kind.handle p env msg raw src = p := by
  cases kind with
  | refresh => rw [Control.handle, handleRefresh, hAuth]
  | createPermission => rw [Control.handle, handleCreatePermission, hAuth]
  | channelBind => rw [Control.handle, handleChannelBind, hAuth]
  | connect => rfl

section

variable (hGet : p.store.get c = some a) (hAuth : authenticate env msg src raw = .ok auth)
include hGet hAuth

theorem intact_handleRefresh :
    Intact a (p.handleRefresh env msg raw src).2.store c ↔ ¬ Control.refresh.Reaches p env msg src auth c a := by
  rw [Control.Reaches, handleRefresh, hAuth]
  dsimp only
  cases p.refreshLifetime msg src auth with
  | error actions =>
    refine iff_of_true (intact_of_get hGet) ?_
    rintro ⟨lifetime, h, -⟩
    cases h
  | ok lifetime =>
    rw [intact_refresh hGet auth.key, not_iff_not]
    constructor
    · intro h
      exact ⟨lifetime, rfl, h⟩
    rintro ⟨_, hLifetime, h⟩
    cases hLifetime
    exact h

theorem intact_handleCreatePermission : Intact a (p.handleCreatePermission env msg raw src).2.store c ↔
      ¬ Control.createPermission.Reaches p env msg src auth c a := by
  rw [store_handleCreatePermission hAuth, Control.Reaches]
  split_ifs with hGranted
  · rw [intact_permit hGet, not_iff_not]
    exact ⟨fun h => ⟨h.1, hGranted.1, hGranted.2, h.2⟩, fun h => ⟨h.1, h.2.2.2⟩⟩
  · exact iff_of_true (intact_of_get hGet) (fun h => hGranted ⟨h.2.1, h.2.2.1⟩)

theorem intact_handleChannelBind : Intact a (p.handleChannelBind env msg raw src).2.store c ↔
      ¬ Control.channelBind.Reaches p env msg src auth c a := by
  rw [store_handleChannelBind hAuth, Control.Reaches]
  cases p.bindTarget msg src with
  | error actions =>
    refine iff_of_true (intact_of_get hGet) ?_
    rintro ⟨-, _, _, h, -⟩
    cases h
  | ok target =>
    rw [intact_bind hGet, not_iff_not]
    constructor
    · rintro ⟨hSrc, h⟩
      exact ⟨hSrc, target.1, target.2, rfl, h⟩
    rintro ⟨hSrc, _, _, hTarget, h⟩
    cases hTarget
    exact ⟨hSrc, h⟩

end

theorem affects_iff (hGet : p.store.get c = some a) (kind : Control) : kind.Affects p env msg raw src c a ↔
      ∃ auth, authenticate env msg src raw = .ok auth ∧ kind.Reaches p env msg src auth c a := by
  cases hAuth : authenticate env msg src raw with
  | error actions =>
    refine iff_of_false ?_ (fun ⟨_, h, _⟩ => by cases h)
    rintro (hChanged | ⟨-, -, _, _, _, hProceed⟩)
    · rw [handle_unauthenticated hAuth] at hChanged
      exact hChanged (intact_of_get hGet)
    · rw [connectDecision, hAuth] at hProceed
      cases hProceed
  | ok auth =>
    have hReaches : (∃ auth', Except.ok auth = (.ok auth' : Except (List Action) AuthResolution) ∧
        kind.Reaches p env msg src auth' c a) ↔ kind.Reaches p env msg src auth c a := by
      constructor
      · rintro ⟨_, hEq, h⟩
        cases hEq
        exact h
      · exact fun h => ⟨auth, rfl, h⟩
    rw [hReaches, Control.Affects]
    cases kind with
    | refresh => simp [Control.handle, intact_handleRefresh hGet hAuth]
    | createPermission => simp [Control.handle, intact_handleCreatePermission hGet hAuth]
    | channelBind => simp [Control.handle, intact_handleChannelBind hGet hAuth]
    | connect =>
      rw [Control.handle, or_iff_right (not_not.mpr (intact_of_get hGet)), Control.Reaches]
      constructor
      · rintro ⟨-, rfl, h⟩
        exact ⟨rfl, (connectDecision_proceed hGet hAuth).mp h⟩
      · rintro ⟨rfl, h⟩
        exact ⟨rfl, rfl, (connectDecision_proceed hGet hAuth).mpr h⟩

end Affects

/-- Whatever the request affects is an allocation of the user who made it. -/
def OwnerOnly (p : Processor) (env : Surroundings) (msg : StunMessage) (raw : Bytes) (src : SocketAddr)
    (kind : Control) : Prop :=
  ∀ c a, p.store.get c = some a → kind.Affects p env msg raw src c a →
    ∃ auth, authenticate env msg src raw = .ok auth ∧ identityOf auth = a.userKey

/-! ## Another user at the same address -/

def bobRelease : StunMessage := Scenario.request .refresh 2 "bob" [.lifetime 0]

def aliceAllocated : Processor :=
  (Scenario.server.process (Scenario.surroundings Scenario.longTerm 0)
    (Scenario.wire (Scenario.allocateUdp 1 "alice")) (Scenario.client 1)).2

def bobEnv : Surroundings := Scenario.surroundings Scenario.longTerm (secs 1)

theorem other_user_releases : ∃ (p : Processor) (env : Surroundings) (msg : StunMessage) (raw : Bytes)
    (src : SocketAddr) (kind : Control), StunMessage.decode raw = .ok msg ∧ ¬ OwnerOnly p env msg raw src kind := by
  refine ⟨aliceAllocated, bobEnv, arrived bobRelease, wire bobRelease, client 1, .refresh,
    by decide +kernel, fun hOwner => ?_⟩
  have hOwned : (aliceAllocated.store.get (client 1)).map Allocation.userKey = some ("r", none, "alice") := by
    decide +kernel
  have hGone : ((aliceAllocated.handleRefresh bobEnv (arrived bobRelease) (wire bobRelease)
      (client 1)).2.store.get (client 1)).isNone = true := by decide +kernel
  have hBob : (authenticate bobEnv (arrived bobRelease) (client 1)
      (wire bobRelease)).toOption.map identityOf = some ("r", none, "bob") := by decide +kernel
  obtain ⟨a, hGet, hKey⟩ := Option.map_eq_some_iff.mp hOwned
  have hAffects : Control.refresh.Affects aliceAllocated bobEnv (arrived bobRelease) (wire bobRelease)
      (client 1) (client 1) a := by
    left
    rintro ⟨a', hAfter, -⟩
    rw [Control.handle, Option.isNone_iff_eq_none.mp hGone] at hAfter
    cases hAfter
  obtain ⟨auth, hAuth, hIdentity⟩ := hOwner _ a hGet hAffects
  rw [hAuth] at hBob
  have hName : identityOf auth = ("r", none, "bob") := Option.some.inj hBob
  rw [hKey, hName] at hIdentity
  exact absurd hIdentity (by decide)

/-- Exactly where every request that reaches an allocation comes from its owner. -/
theorem owner_only_iff (p : Processor) (env : Surroundings) (msg : StunMessage) (raw : Bytes) (src : SocketAddr)
    (kind : Control) :
    OwnerOnly p env msg raw src kind ↔
      ∀ auth c a, authenticate env msg src raw = .ok auth → p.store.get c = some a →
        kind.Reaches p env msg src auth c a → identityOf auth = a.userKey := by
  constructor
  · intro hOwner auth c a hAuth hGet hReaches
    obtain ⟨auth', hAuth', hIdentity⟩ := hOwner c a hGet ((affects_iff hGet kind).mpr ⟨auth, hAuth, hReaches⟩)
    rw [hAuth] at hAuth'
    cases hAuth'
    exact hIdentity
  · intro hReach c a hGet hAffects
    obtain ⟨auth, hAuth, hReaches⟩ := (affects_iff hGet kind).mp hAffects
    exact ⟨auth, hAuth, hReach auth c a hAuth hGet hReaches⟩

end Turna.Relay
