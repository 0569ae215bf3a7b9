import Turna.Relay.Ingress
import Turna.Relay.NodeRun

/-! # The budget for unauthenticated replies

Replies to sources that have proven nothing are to be charged to a bucket before they are sent. A Binding asks the
bucket first, other requests ask it where they are challenged; the verdicts are those of the surroundings.
-/

namespace Turna.Relay
open Lib Net Crypto Stun Auth Session Transport Processor Scenario StunMessage Nat

def Unanswered (v : SocketAddr) (t : UdpTransactions) : Prop := ∀ i tid, (t.shards i).entries.get (v, tid) = none

theorem Unanswered.new (v : SocketAddr) (shardOf : SocketAddr → Fin shardCount) : Unanswered v (.new shardOf) :=
  fun _ _ => HashMap.get_empty _

variable {k : TransactionKey}

theorem get_remove_none {m : HashMap TransactionKey CacheEntry} {key : TransactionKey} (h : m.get k = none) :
    (m.remove key).get k = none := by
  rw [HashMap.get_remove, h, ite_self]

theorem get_expireFrom {now : Nat} (order : List TransactionKey)
    {entries : HashMap TransactionKey CacheEntry} (h : entries.get k = none) :
    (Cache.expireFrom now entries order).entries.get k = none := by
  induction order generalizing entries with
  | nil => exact h
  | cons key order ih =>
    rw [Cache.expireFrom]
    split
    · exact h
    · exact ih (get_remove_none h)

theorem get_insert_cache {cache : Cache} {src : SocketAddr} {request response : Bytes} {now : Nat}
    (h : cache.entries.get k = none) (hOther : k.1 ≠ src) :
    (cache.insert src request response now).entries.get k = none := by
  have hKey : k ≠ Cache.key src request := fun hEq => hOther (congrArg Prod.fst hEq)
  rw [Cache.insert]
  split
  · exact h
  split
  · exact h
  rw [HashMap.get_insert_ne _ _ hKey]
  split
  · rw [Cache.evict]
    split
    · exact h
    · exact get_remove_none h
  · exact h

theorem Unanswered.setShard {v src : SocketAddr} {t : UdpTransactions} {cache : Cache} (h : Unanswered v t)
    (hCache : ∀ tid, cache.entries.get (v, tid) = none) : Unanswered v (t.setShard src cache) := by
  intro i tid
  rw [UdpTransactions.setShard]
  dsimp only
  by_cases hShard : i = t.shardOf src
  · rw [hShard, Function.update_self]
    exact hCache tid
  · rw [Function.update_of_ne hShard]
    exact h i tid

section Packets

variable {p : Processor} {env : Surroundings} {raw : Bytes} {v src : SocketAddr}

theorem Unanswered.expired (h : Unanswered v p.udpTransactions) (tid : TransactionId) :
    (((p.udpTransactions.shard src).expire env.clock.now).entries.get (v, tid)) = none :=
  get_expireFrom _ (h _ tid)

theorem Unanswered.lookup (h : Unanswered v p.udpTransactions) :
    ((p.udpTransactions.shard v).expire env.clock.now).lookup v raw = .miss := by
  rw [Cache.lookup, Cache.key, h.expired]

variable {ingressTcp : Bool}

theorem Unanswered.processStun (h : Unanswered v p.udpTransactions)
    (hRefused : src = v → ∀ msg, StunMessage.decode raw = .ok msg → cacheable msg raw ingressTcp = true →
      successReply src (p.dispatchStun env msg raw src false).1 = none) :
    Unanswered v (p.processStun env raw src ingressTcp).2.udpTransactions := by
  unfold Processor.processStun
  split
  · exact h
  next msg hDecode =>
  split
  · next hCacheable =>
    dsimp only
    split
    · exact h.setShard h.expired
    · exact h.setShard h.expired
    · unfold processFresh
      dsimp only
      rw [show (p.dispatchStun env msg raw src false).2.udpTransactions = p.udpTransactions from
        (served_dispatchStun hDecode).sameCache]
      refine h.setShard fun tid => ?_
      split
      · next data hSuccess =>
        have hOther : v ≠ src := by
          rintro rfl
          rw [hRefused rfl msg hDecode hCacheable] at hSuccess
          cases hSuccess
        exact get_insert_cache (h.expired tid) hOther
      · exact h.expired tid
  · rw [show (p.dispatchStun env msg raw src ingressTcp).2.udpTransactions = p.udpTransactions from
      (served_dispatchStun hDecode).sameCache]
    exact h

theorem sameCache_channelDataDecision : (p.channelDataDecision env raw src).2.udpTransactions = p.udpTransactions := by
  obtain hEq | ⟨a, peer, length, -, -, -, -, hEq⟩ := @channelDataDecision_spec p env raw src <;> rw [hEq]

theorem Unanswered.processImpl (h : Unanswered v p.udpTransactions)
    (hRefused : src = v → ∀ msg, StunMessage.decode raw = .ok msg → cacheable msg raw ingressTcp = true →
      successReply src (p.dispatchStun env msg raw src false).1 = none) :
    Unanswered v (p.processImpl env raw src ingressTcp).2.udpTransactions := by
  unfold Processor.processImpl
  split
  · exact h
  split
  · exact h
  split
  · split
    · exact h
    rw [show (p.processChannelData env raw src).2.udpTransactions = p.udpTransactions from
      (@served_processChannelData p env raw src).sameCache]
    exact h
  · split
    · exact h
    · exact h.processStun hRefused

theorem Unanswered.processSlice (h : Unanswered v p.udpTransactions)
    (hRefused : src = v → ∀ msg, StunMessage.decode raw = .ok msg → cacheable msg raw false = true →
      successReply src (p.dispatchStun env msg raw src false).1 = none) :
    Unanswered v (p.processSlice env raw src).2.udpTransactions := by
  have hSame := @sameCache_channelDataDecision p env raw src
  unfold Processor.processSlice
  split
  · split
    · exact h
    split
    · exact h
    split
    all_goals next hDecision =>
      rw [hDecision] at hSame
      rw [show _ = p.udpTransactions from hSame]
      exact h
  · exact h.processImpl hRefused

theorem sameCache_processRelayRecv {data : Bytes} {peerAddr relayAddr : SocketAddr} :
    SameCache p (p.processRelayRecv env data peerAddr relayAddr) := by
  unfold processRelayRecv
  dsimp only
  split
  · rfl
  split
  · rfl
  split
  · rfl
  split
  · rfl
  split
  · rfl
  · split <;> rfl

theorem sameCache_releaseForClosedConnection {client : SocketAddr} :
    SameCache p (p.releaseForClosedConnection env client) := by
  unfold releaseForClosedConnection
  split
  · rfl
  · split <;> rfl

theorem sameCache_migrateQuicAllocation {oldAddr newAddr : SocketAddr} :
    (p.migrateQuicAllocation env oldAddr newAddr).2.udpTransactions = p.udpTransactions := by
  unfold migrateQuicAllocation
  split
  · rfl
  split
  · rfl
  · split <;> rfl

theorem sameCache_removeUser {user : String} : (p.removeUser env user).udpTransactions = p.udpTransactions := by
  unfold removeUser
  generalize ((env.order.visit p.store.allocations.entries).filter _).map _ = clients
  induction clients generalizing p with
  | nil => rfl
  | cons c clients ih => exact ih

theorem sameCache_nodeStep {step : NodeStep} (h : step.packet? = none) :
    (step.apply p).udpTransactions = p.udpTransactions := by
  cases step with
  | process env raw src | processTcpControl env raw src | processSlice env raw src => cases h
  | processRelayRecv env data peerAddr relayAddr => exact sameCache_processRelayRecv
  | releaseForClosedConnection env client => exact sameCache_releaseForClosedConnection
  | migrateQuicAllocation env oldAddr newAddr => exact sameCache_migrateQuicAllocation
  | deleteAllocation env relayId =>
    rw [NodeStep.apply, NodeStep.run, deleteAllocation]
    split <;> rfl
  | removeUser env user => exact sameCache_removeUser
  | cleanupExpired order sweep maxOps => rfl
  | bulkLoad order rows => rfl
  | adopt order clock row => rfl
  | publish runtime userLimits => rfl
  | usageSink tx => rfl

end Packets

/-! ## Checks and replies -/

def isChallenged (env : Surroundings) (msg : StunMessage) (src : SocketAddr) (raw : Bytes) : Bool :=
  if !msg.hasUserIdentity then true
  else
    match msg.getNonce with
    | none => true
    | some nonce =>
      env.nonceValid src nonce &&
        match env.auth.validateOpts env.authEnv msg raw with
        | .ok _ => false
        | .error e => (authDeferred msg src e).isNone && decide (e ≠ .badRequest)

def methodOk (env : Surroundings) : Method → Bool
  | .allocate => env.allocateOk
  | .refresh => env.allocateOk
  | .createPermission => env.createPermissionOk
  | .channelBind => env.channelBindOk
  | _ => true

def needsAuth : Method → Bool
  | .allocate => true
  | .refresh => true
  | .createPermission => true
  | .channelBind => true
  | _ => false

namespace Processor

variable (p : Processor) (env : Surroundings)

/-- The verdict of the first check that a request makes on the budget, if it makes one. -/
def dispatchCheck (msg : StunMessage) (raw : Bytes) (src : SocketAddr) : Option Bool :=
  if msg.cls ≠ .request ∨ (rejectUnknownComprehensionRequired msg src).isSome ∨
      (p.maybeRedirectNewClient env msg src).isSome then none
  else if msg.method = .binding then some env.bindingReplyOk
  else if needsAuth msg.method && methodOk env msg.method && isChallenged env msg src raw then some env.unauthReplyOk
  else none

def stunCheck (raw : Bytes) (src : SocketAddr) : Option Bool :=
  match StunMessage.decode raw with
  | .error _ => none
  | .ok msg =>
    if cacheable msg raw false && ((p.udpTransactions.shard src).expire env.clock.now).lookup src raw != .miss then none
    else p.dispatchCheck env msg raw src

/-- The same for a packet on any way in. A reply on a stream is no datagram. -/
def firstCheck (src : SocketAddr) : Ingress → Option Bool
  | .datagram raw => if !env.banned && isStunMessage raw && env.ingressOk then p.stunCheck env raw src else none
  | .slice raw => if !env.banned && isStunMessage raw && env.ingressOk then p.stunCheck env raw src else none
  | .owned raw => if !env.banned && isStunMessage raw && env.ingressOk then p.stunCheck env raw src else none
  | .natDiscovery raw _ _ =>
    if isStunMessage raw && env.ingressOk then
      match StunMessage.decode raw with
      | .error _ => none
      | .ok msg => if msg.cls = .request ∧ msg.method = .binding then some env.bindingReplyOk else none
    else none
  | .tcpControl _ => none
  | .stream _ _ => none

end Processor

def replyCount (src : SocketAddr) (actions : List Action) : Nat :=
  actions.countP fun
    | .send _ target => target == src
    | _ => false

def Ingress.isDatagram : Ingress → Bool
  | .tcpControl _ => false
  | .stream _ _ => false
  | _ => true

def Ingress.raw : Ingress → Bytes
  | .datagram raw => raw
  | .slice raw => raw
  | .tcpControl raw => raw
  | .owned raw => raw
  | .natDiscovery raw _ _ => raw
  | .stream raw _ => raw

/-- The packet proves credentials: its signature verifies under the key of a known user. -/
def proven (env : Surroundings) (raw : Bytes) : Bool :=
  match StunMessage.decode raw with
  | .error _ => false
  | .ok msg => (env.auth.validateOpts env.authEnv msg raw).isOk

/-- Without proof of credentials, the TURN listener answers with nothing but a Binding response or a challenge. -/
def challengedFirst (p : Processor) (env : Surroundings) (src : SocketAddr) (raw : Bytes) : Bool :=
  match StunMessage.decode raw with
  | .error _ => true
  | .ok msg => msg.cls != .request ||
    ((rejectUnknownComprehensionRequired msg src).isNone && (p.maybeRedirectNewClient env msg src).isNone &&
      (!needsAuth msg.method || (methodOk env msg.method && (isChallenged env msg src raw || proven env raw))))

/-! ## One packet -/

section Counts

variable {p : Processor} {env : Surroundings} {msg : StunMessage} {raw : Bytes} {src : SocketAddr}

theorem Answer.replyCount_le {v : SocketAddr} {actions : List Action} (h : Answer v actions) :
    replyCount src actions ≤ 1 :=
  le_trans List.countP_le_length h.length_le

theorem replyCount_encodeAuthChallenge :
    replyCount src (encodeAuthChallenge env msg src) ≤ env.unauthReplyOk.toNat := by
  rw [encodeAuthChallenge]
  cases env.unauthReplyOk with
  | false => exact le_refl _
  | true => exact (answer_encodeOrDrop _).replyCount_le

variable {actions : List Action}

theorem replyCount_handleBinding : replyCount src (p.handleBinding env msg raw src) ≤ env.bindingReplyOk.toNat := by
  cases hOk : env.bindingReplyOk with
  | false =>
    rw [handleBinding, hOk]
    exact le_refl _
  | true => exact answer_handleBinding.replyCount_le

theorem authenticate_of_challenged (h : isChallenged env msg src raw = true) :
    authenticate env msg src raw = .error (encodeAuthChallenge env msg src) := by
  rw [isChallenged] at h
  rw [authenticate]
  split at h
  · next hIdentity => rw [if_pos hIdentity]
  next hIdentity =>
  rw [if_neg hIdentity, validateNonce]
  split at h
  · next hNonce => rw [hNonce]
  next nonce hNonce =>
  obtain ⟨hValid, hAuth⟩ := Bool.and_eq_true_iff.mp h
  rw [hNonce]
  dsimp only
  rw [if_pos hValid]
  cases hFailed : env.auth.validateOpts env.authEnv msg raw with
  | ok auth =>
    rw [hFailed] at hAuth
    cases hAuth
  | error e =>
    rw [hFailed] at hAuth
    obtain ⟨hDeferred, hBad⟩ := Bool.and_eq_true_iff.mp hAuth
    dsimp only
    rw [authRefused, Option.isNone_iff_eq_none.mp hDeferred]
    rw [if_neg (of_decide_eq_true hBad)]

theorem replyCount_of_silent (h : Silent actions) : replyCount src actions = 0 := by
  refine List.countP_eq_zero.mpr fun x hIn hReply => ?_
  cases x with
  | send data target => exact h data target hIn
  | _ => cases hReply

theorem replyCount_of_repliesTo {v : SocketAddr} (h : RepliesTo src actions) (hNe : src ≠ v) :
    replyCount v actions = 0 := by
  refine List.countP_eq_zero.mpr fun x hIn hReply => ?_
  cases x with
  | send data target => exact hNe ((h data target hIn).symm.trans (beq_iff_eq.mp hReply))
  | _ => cases hReply

theorem dispatchStun_challenged {ingressTcp : Bool} (hCls : msg.cls = .request)
    (hKnown : rejectUnknownComprehensionRequired msg src = none) (hHere : p.maybeRedirectNewClient env msg src = none)
    (hAuth : needsAuth msg.method = true) (hMethod : methodOk env msg.method = true)
    (hChallenged : isChallenged env msg src raw = true) :
    p.dispatchStun env msg raw src ingressTcp = (encodeAuthChallenge env msg src, p) := by
  have hAuthenticate := authenticate_of_challenged hChallenged
  rw [dispatchStun, hCls, if_pos rfl, hKnown, hHere]
  cases hName : msg.method with
  | allocate =>
    rw [hName] at hMethod
    rw [show env.allocateOk = true from hMethod, handleAllocate, hAuthenticate]
    rfl
  | refresh =>
    rw [hName] at hMethod
    rw [show env.allocateOk = true from hMethod, handleRefresh, hAuthenticate]
    rfl
  | createPermission =>
    rw [hName] at hMethod
    rw [show env.createPermissionOk = true from hMethod, handleCreatePermission, hAuthenticate]
    rfl
  | channelBind =>
    rw [hName] at hMethod
    rw [show env.channelBindOk = true from hMethod, handleChannelBind, hAuthenticate]
    rfl
  | _ =>
    rw [hName] at hAuth
    cases hAuth

theorem challengedFirst_request (h : challengedFirst p env src raw = true) (hUnproven : proven env raw = false)
    (hDecode : decode raw = .ok msg) (hCls : msg.cls = .request) :
    rejectUnknownComprehensionRequired msg src = none ∧ p.maybeRedirectNewClient env msg src = none ∧
      (needsAuth msg.method = true → methodOk env msg.method = true ∧ isChallenged env msg src raw = true) := by
  rw [challengedFirst, hDecode, hUnproven] at h
  simp only [hCls, bne_self_eq_false, Bool.false_or, Bool.and_eq_true, Option.isNone_iff_eq_none, Bool.or_false,
    Bool.or_eq_true, Bool.not_eq_true'] at h
  obtain ⟨⟨hKnown, hHere⟩, hRest⟩ := h
  refine ⟨hKnown, hHere, fun hAuth => ?_⟩
  obtain hNone | hBoth := hRest
  · rw [hAuth] at hNone
    cases hNone
  · exact hBoth

theorem replyCount_dispatchStun (h : challengedFirst p env src raw = true) (hUnproven : proven env raw = false)
    (hDecode : decode raw = .ok msg) :
    replyCount src (p.dispatchStun env msg raw src false).1 ≤ (p.dispatchCheck env msg raw src == some true).toNat := by
  by_cases hCls : msg.cls = .request
  · obtain ⟨hKnown, hHere, hCharged⟩ := challengedFirst_request h hUnproven hDecode hCls
    have hCheck : p.dispatchCheck env msg raw src = if msg.method = .binding then some env.bindingReplyOk
        else if needsAuth msg.method && methodOk env msg.method && isChallenged env msg src raw then
          some env.unauthReplyOk else none := by
      rw [dispatchCheck, hCls, hKnown, hHere, if_neg (by simp)]
    have hVerdict : ∀ ok : Bool, (some ok == some true) = ok := by decide
    by_cases hAuth : needsAuth msg.method = true
    · obtain ⟨hMethod, hChallenged⟩ := hCharged hAuth
      have hOther : msg.method ≠ .binding := by
        intro hBinding
        rw [hBinding] at hAuth
        cases hAuth
      rw [dispatchStun_challenged hCls hKnown hHere hAuth hMethod hChallenged, hCheck, if_neg hOther, hAuth, hMethod,
        hChallenged, if_pos (by rfl), hVerdict]
      exact replyCount_encodeAuthChallenge
    · by_cases hBinding : msg.method = .binding
      · rw [dispatchStun, hCls, if_pos rfl, hKnown, hHere, hBinding, hCheck, if_pos hBinding, hVerdict]
        exact replyCount_handleBinding
      rw [dispatchStun, hCls, if_pos rfl, hKnown, hHere]
      cases hName : msg.method <;> rw [hName] at hAuth hBinding <;>
        first | exact absurd rfl hAuth | exact absurd rfl hBinding | exact zero_le _
  · have hSilent : Silent (p.dispatchStun env msg raw src false).1 := by
      rw [dispatchStun, if_neg hCls]
      dsimp only
      split
      all_goals first | exact absurd ‹_› hCls | exact silent_handleSendIndication | exact silent_none
    rw [replyCount_of_silent hSilent]
    exact zero_le _

end Counts

section Packets

variable {p : Processor} {env : Surroundings} {raw : Bytes} {v src : SocketAddr}

section

variable (h : Unanswered v p.udpTransactions) (hCharged : challengedFirst p env v raw = true)
  (hUnproven : proven env raw = false)
include h hCharged hUnproven

theorem replyCount_processStun
    : replyCount v (p.processStun env raw v false).1 ≤ (p.stunCheck env raw v == some true).toNat := by
  cases hDecode : decode raw with
  | error e =>
    rw [processStun, hDecode]
    exact zero_le _
  | ok msg =>
    have hDispatch := replyCount_dispatchStun hCharged hUnproven hDecode
    rw [processStun, stunCheck, hDecode]
    dsimp only
    rw [h.lookup]
    by_cases hCacheable : cacheable msg raw false = true
    · rw [if_pos hCacheable, hCacheable]
      exact hDispatch
    · rw [if_neg hCacheable, Bool.eq_false_of_not_eq_true hCacheable]
      exact hDispatch

theorem replyCount_processImpl
    : replyCount v (p.processImpl env raw v false).1 ≤ (p.firstCheck env v (.datagram raw) == some true).toNat := by
  have hStun := replyCount_processStun h hCharged hUnproven
  rw [processImpl, firstCheck]
  cases env.banned with
  | true => exact zero_le _
  | false =>
    rw [if_neg (by decide)]
    by_cases hChannel : isChannelData raw = true
    · rw [hChannel, if_neg (by simp), if_pos rfl]
      split
      · exact zero_le _
      · rw [replyCount_of_silent silent_processChannelData]
        exact zero_le _
    · rw [Bool.eq_false_of_not_eq_true hChannel]
      cases isStunMessage raw with
      | false => exact zero_le _
      | true =>
        cases env.ingressOk with
        | false => exact zero_le _
        | true => exact hStun

theorem replyCount_processSlice :
    replyCount v (p.processSlice env raw v).1 ≤ (p.firstCheck env v (.slice raw) == some true).toNat := by
  rw [processSlice]
  split
  · split
    · exact zero_le _
    split
    · exact zero_le _
    · split <;> exact zero_le _
  · exact replyCount_processImpl h hCharged hUnproven

end

theorem handleNatDiscovery_le {local' : SocketAddr} {topology : NatDiscoveryTopology} :
    (p.handleNatDiscovery env raw src local' topology).isSome.toNat ≤
      (p.firstCheck env src (.natDiscovery raw local' topology) == some true).toNat := by
  rw [handleNatDiscovery, firstCheck]
  cases isStunMessage raw with
  | false => exact le_refl _
  | true =>
    cases env.ingressOk with
    | false => exact le_refl _
    | true =>
      cases decode raw with
      | error e => exact le_refl _
      | ok msg =>
        by_cases hBinding : msg.cls = .request ∧ msg.method = .binding
        · dsimp only [Bool.not_true, Bool.and_true]
          rw [if_pos hBinding]
          cases env.bindingReplyOk with
          | false => simp
          | true => exact Bool.toNat_le _
        · have hOther : msg.cls ≠ .request ∨ msg.method ≠ .binding := by
            by_cases hCls : msg.cls = .request
            · exact .inr fun hMethod => hBinding ⟨hCls, hMethod⟩
            · exact .inl hCls
          dsimp only [Bool.not_true]
          rw [if_neg (by decide), if_neg (by decide), if_pos hOther]
          exact zero_le _

theorem successReply_challenged (hCharged : challengedFirst p env src raw = true) (hUnproven : proven env raw = false)
    {msg : StunMessage} (hDecode : decode raw = .ok msg) (hCacheable : cacheable msg raw false = true) :
    successReply src (p.dispatchStun env msg raw src false).1 = none := by
  simp only [cacheable, Bool.and_eq_true, beq_iff_eq, Bool.or_eq_true] at hCacheable
  obtain ⟨⟨⟨-, hCls⟩, -⟩, hMethod⟩ := hCacheable
  have hAuth : needsAuth msg.method = true := by
    obtain hRefresh | ⟨hAllocate, -⟩ := hMethod
    · rw [hRefresh]
      rfl
    · rw [hAllocate]
      rfl
  obtain ⟨hKnown, hHere, hChallenged⟩ := challengedFirst_request hCharged hUnproven hDecode hCls
  obtain ⟨hOk, hChallenged⟩ := hChallenged hAuth
  rw [dispatchStun_challenged hCls hKnown hHere hAuth hOk hChallenged]
  exact (refusal_encodeAuthChallenge env msg src).successReply src

end Packets

/-! ## Runs -/

/-- A packet on one of the ways in, or a step of the node that takes none. -/
inductive ServerStep where
  | packet (env : Surroundings) (src : SocketAddr) (way : Ingress)
  | node (step : NodeStep) (hOther : step.packet? = none)

namespace ServerStep

def apply (p : Processor) : ServerStep → Processor
  | .packet env src way => (p.deliver env src way).processor
  | .node step _ => step.apply p

def within (first last : Nat) : ServerStep → Bool
  | .packet env _ _ => decide (first ≤ env.clock.now ∧ env.clock.now ≤ last)
  | .node _ _ => false

/-- The datagrams that are sent to `v` in reply to the packet. A discovery socket answers the source. -/
def answersTo (v : SocketAddr) (p : Processor) : ServerStep → Nat
  | .packet env src way =>
    if way.isDatagram then
      replyCount v (p.deliver env src way).actions +
        (if src = v then (p.deliver env src way).reply.isSome.toNat else 0)
    else 0
  | .node _ _ => 0

/-- The tokens of the reply budget that packets from `v` are granted before anything else is done. -/
def grantsTo (v : SocketAddr) (p : Processor) : ServerStep → Nat
  | .packet env src way => if src = v then (p.firstCheck env src way == some true).toNat else 0
  | .node _ _ => 0

def during (first last : Nat) (weight : Processor → ServerStep → Nat) (p : Processor) (step : ServerStep) : Nat :=
  if step.within first last then weight p step else 0

def replies (v : SocketAddr) (first last : Nat) (p : Processor) (steps : List ServerStep) : Nat :=
  Trace.total apply (during first last (answersTo v)) p steps

def tokens (v : SocketAddr) (first last : Nat) (p : Processor) (steps : List ServerStep) : Nat :=
  Trace.total apply (during first last (grantsTo v)) p steps

def unprovenFrom (v : SocketAddr) : ServerStep → Bool
  | .packet env src way => decide (src ≠ v) || !proven env way.raw
  | .node _ _ => true

def chargedFrom (v : SocketAddr) (p : Processor) : ServerStep → Bool
  | .packet _ _ (.natDiscovery _ _ _) => true
  | .packet env src way => decide (src ≠ v) || !way.isDatagram || challengedFirst p env src way.raw
  | .node _ _ => true

end ServerStep

section Run

variable {p : Processor} {v : SocketAddr} {step : ServerStep}

theorem Unanswered.deliver {env : Surroundings} {src : SocketAddr} {way : Ingress} (h : Unanswered v p.udpTransactions)
    (hRefused : way.isDatagram = true → src = v → ∀ msg, decode way.raw = .ok msg →
      cacheable msg way.raw false = true → successReply src (p.dispatchStun env msg way.raw src false).1 = none) :
    Unanswered v (p.deliver env src way).processor.udpTransactions := by
  have hStream : ∀ raw, Unanswered v (p.processTcpControl env raw src).2.udpTransactions := fun raw =>
    h.processImpl fun _ msg _ hCacheable => nomatch hCacheable
  cases way with
  | datagram raw | owned raw => exact h.processImpl (hRefused rfl)
  | slice raw => exact h.processSlice (hRefused rfl)
  | tcpControl raw => exact hStream raw
  | natDiscovery raw local' topology => exact h
  | stream raw tcpRelay =>
    rw [Processor.deliver]
    split
    · split
      · unfold connectEffect
        split <;> exact h
      · unfold connectionBindEffect
        split <;> exact h
    · exact hStream raw

theorem unanswered_step (h : Unanswered v p.udpTransactions) (hUnproven : step.unprovenFrom v = true)
    (hCharged : step.chargedFrom v p = true) : Unanswered v (step.apply p).udpTransactions := by
  cases step with
  | node step hOther =>
    rw [ServerStep.apply, sameCache_nodeStep hOther]
    exact h
  | packet env src way =>
    have hProof : src = v → proven env way.raw = false := by
      rintro rfl
      simpa [ServerStep.unprovenFrom] using hUnproven
    cases way with
    | natDiscovery raw local' topology => exact h
    | _ =>
      refine h.deliver fun hDatagram hSrc msg => successReply_challenged ?_ (hProof hSrc)
      subst hSrc
      simpa [ServerStep.chargedFrom, hDatagram] using hCharged

theorem answersTo_le (h : Unanswered v p.udpTransactions) (hUnproven : step.unprovenFrom v = true)
    (hCharged : step.chargedFrom v p = true) : step.answersTo v p ≤ step.grantsTo v p := by
  cases step with
  | node step hOther => exact le_refl _
  | packet env src way =>
    rw [ServerStep.answersTo, ServerStep.grantsTo]
    by_cases hSrc : src = v
    · subst hSrc
      have hProof : proven env way.raw = false := by simpa [ServerStep.unprovenFrom] using hUnproven
      rw [if_pos rfl, if_pos rfl]
      cases way with
      | tcpControl raw | stream raw tcpRelay => exact zero_le _
      | natDiscovery raw local' topology =>
        refine le_trans (le_of_eq ?_) handleNatDiscovery_le
        exact zero_add _
      | datagram raw | owned raw =>
        refine replyCount_processImpl h ?_ hProof
        simpa [ServerStep.chargedFrom, Ingress.isDatagram, Ingress.raw] using hCharged
      | slice raw =>
        refine replyCount_processSlice h ?_ hProof
        simpa [ServerStep.chargedFrom, Ingress.isDatagram, Ingress.raw] using hCharged
    · rw [if_neg hSrc, if_neg hSrc]
      cases way with
      | tcpControl raw | stream raw tcpRelay | natDiscovery raw local' topology => exact le_refl _
      | datagram raw | owned raw => exact (replyCount_of_repliesTo (outcome_processImpl false).1 hSrc).le
      | slice raw => exact (replyCount_of_repliesTo outcome_processSlice.1 hSrc).le

end Run

def exhausted : Surroundings :=
  { Scenario.surroundings Scenario.longTerm 0 with
    bindingReplyOk := false, unauthReplyOk := false, nonceValid := fun _ _ => false }

def unsignedAllocate : Bytes := ((Scenario.allocateUdp 1 "u").encode 512).toOption.getD []

/-- With no token left, a source without proof is told that its nonce is stale. -/
theorem stale_nonce_uncharged :
    let v := client 1
    let allocate := ServerStep.packet exhausted v (.datagram unsignedAllocate)
    allocate.unprovenFrom v = true ∧ ServerStep.replies v 0 5 server [allocate] = 1 ∧
      ServerStep.tokens v 0 5 server [allocate] = 0 := by
  decide +kernel

/-- In every run in which the packets of `v` prove nothing and are charged first. -/
theorem replies_within_budget (v : SocketAddr) (p : Processor) (steps : List ServerStep) (first last : Nat)
    (hFresh : Unanswered v p.udpTransactions)
    (hRun : Trace.Allowed ServerStep.apply
      (fun p step => step.unprovenFrom v = true ∧ step.chargedFrom v p = true) p steps) :
    ServerStep.replies v first last p steps ≤ ServerStep.tokens v first last p steps := by
  refine hRun.total_mono (I := fun p => Unanswered v p.udpTransactions)
    (fun p step h hOk => unanswered_step h hOk.1 hOk.2) (fun p step h hOk => ?_) hFresh
  unfold ServerStep.during
  split
  · exact answersTo_le h hOk.1 hOk.2
  · exact Nat.le_refl _

theorem replies_within_budget_once :
    let v := client 1
    let binding := ServerStep.packet (surroundings longTerm 0) v (.datagram (bareRequest 0x01))
    ServerStep.replies v 0 5 server [binding] = 1 ∧
      ServerStep.replies v 0 5 server [binding] ≤ ServerStep.tokens v 0 5 server [binding] := by
  refine ⟨by decide +kernel, replies_within_budget _ _ _ _ _ (Unanswered.new _ _) ⟨⟨?_, ?_⟩, trivial⟩⟩
  · decide +kernel
  · decide +kernel

end Turna.Relay
