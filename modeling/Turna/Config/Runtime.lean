import Turna.Session.Routing

/-! # The runtime-changeable limits

A patch is applied to a versioned snapshot under optimistic concurrency: it names the version it was
made for, and the whole candidate is validated before the version moves on.
-/

namespace Turna.Config
open Session Lib Session.AllocationStore List

structure RelayConfig where
  minPort : UInt16
  maxPort : UInt16
  maxAllocations : Nat

structure StaticUser where
  username : String
  password : String

structure TenantConfig where
  id : String
  realm : String
  relayPortRange : UInt16 × UInt16
  sharedSecret : String
  staticUsers : List StaticUser
  maxAllocations : Nat
  quota : BandwidthQuota

structure TurnaConfig where
  production : Bool
  relay : RelayConfig
  tenants : List TenantConfig

inductive ConfigError where
  | validation (message : String)
  deriving DecidableEq

def defaultSharedSecret : String := "change-me-in-production"

def isWhiteSpace (c : Char) : Bool :=
  (9 ≤ c.toNat ∧ c.toNat ≤ 13) ∨ c.toNat ∈ [0x20, 0x85, 0xA0, 0x1680, 0x2028, 0x2029, 0x202F, 0x205F, 0x3000] ∨
    (0x2000 ≤ c.toNat ∧ c.toNat ≤ 0x200A)

def isBlank (s : String) : Bool := s.toList.all isWhiteSpace

def validateRelay (relay : RelayConfig) : List String :=
  (if relay.maxPort ≤ relay.minPort then
    [s!"turn.relay.min_port ({relay.minPort}) >= max_port ({relay.maxPort})"]
  else []) ++
  if relay.minPort < relay.maxPort then
    let usable := (relay.maxPort - relay.minPort).toNat + 1
    if usable < relay.maxAllocations then
      [s!"turn.relay.max_allocations ({relay.maxAllocations}) exceeds usable relay ports ({usable}) " ++
        s!"for range [{relay.minPort}, {relay.maxPort}] — a cap above the port count is unreachable"]
    else []
  else []

structure Seen where
  ids : List String
  realms : List String
  ranges : List (String × UInt16 × UInt16)

def Seen.empty : Seen := ⟨[], [], []⟩

namespace TenantConfig

variable (t : TenantConfig) (seen : Seen)

def lo : UInt16 := t.relayPortRange.1

def hi : UInt16 := t.relayPortRange.2

def idErrors : List String :=
  if isBlank t.id then ["a tenant has an empty id"]
  else if t.id ∈ seen.ids then [s!"duplicate tenant id '{t.id}'"]
  else []

def realmErrors : List String :=
  if isBlank t.realm then [s!"tenant '{t.id}' has an empty realm"]
  else if t.realm ∈ seen.realms then [s!"duplicate tenant realm '{t.realm}'"]
  else []

def rangeErrors : List String :=
  if t.hi ≤ t.lo then [s!"tenant '{t.id}' relay_port_range [{t.lo}, {t.hi}] is empty or inverted"]
  else if 0 < t.maxAllocations then
    let usable := (t.hi - t.lo).toNat + 1
    if usable < t.maxAllocations then
      [s!"tenant '{t.id}' max_allocations ({t.maxAllocations}) exceeds usable ports " ++
        s!"({usable}) in its relay range [{t.lo}, {t.hi}]"]
    else []
  else []

def credentialErrors (production : Bool) : List String :=
  (if t.sharedSecret.isEmpty && t.staticUsers.isEmpty then
    [s!"tenant '{t.id}' has neither shared_secret nor static_users — no client could authenticate"]
  else []) ++
  if !t.sharedSecret.isEmpty && t.sharedSecret == defaultSharedSecret && production then
    [s!"tenant '{t.id}' shared_secret is the public placeholder default; " ++
      "generate one with `openssl rand -hex 32`"]
  else []

def overlapErrors : List String :=
  seen.ranges.filterMap fun (other, olo, ohi) =>
    if t.lo ≤ ohi ∧ olo ≤ t.hi then
      some (s!"tenant '{t.id}' port range [{t.lo}, {t.hi}] overlaps tenant '{other}' " ++
        s!"[{olo}, {ohi}] — port isolation requires disjoint ranges")
    else none

def errors (production : Bool) : List String :=
  t.idErrors seen ++ t.realmErrors seen ++ t.rangeErrors ++ t.credentialErrors production ++ t.overlapErrors seen

def record : Seen where
  ids := if isBlank t.id then seen.ids else t.id :: seen.ids
  realms := if isBlank t.realm then seen.realms else t.realm :: seen.realms
  ranges := seen.ranges ++ [(t.id, t.lo, t.hi)]

end TenantConfig

def validateTenants (production : Bool) : Seen → List TenantConfig → List String
  | _, [] => []
  | seen, t :: rest => t.errors seen production ++ validateTenants production (t.record seen) rest

namespace TurnaConfig

variable (cfg : TurnaConfig)

def validate : Except ConfigError Unit :=
  let errors := validateRelay cfg.relay ++ validateTenants cfg.production .empty cfg.tenants
  if errors.isEmpty then .ok () else .error (.validation ("; ".intercalate errors))

/-- The start of each pool's cursor is drawn from `seeds`. -/
def store (seeds : Option String → UInt32) : AllocationStore :=
  .configured cfg.relay.minPort cfg.relay.maxPort (seeds none) cfg.relay.maxAllocations
    (cfg.tenants.map fun t => ⟨t.id, t.lo, t.hi, seeds (some t.id), t.maxAllocations, t.quota⟩)

def BaseApart : Prop := ∀ t ∈ cfg.tenants, t.hi < cfg.relay.minPort ∨ cfg.relay.maxPort < t.lo

end TurnaConfig

structure Apart (t t' : TenantConfig) : Prop where
  id : t.id ≠ t'.id
  range : t.hi < t'.lo ∨ t'.hi < t.lo

theorem validateRelay_eq_nil {relay : RelayConfig} (h : validateRelay relay = []) : relay.minPort < relay.maxPort := by
  rw [validateRelay, append_eq_nil_iff] at h
  by_contra hRange
  rw [if_pos (UInt16.not_lt.mp hRange)] at h
  cases h.1

namespace TenantConfig

variable {t : TenantConfig} {seen : Seen} {production : Bool}

theorem idErrors_eq_nil (h : t.idErrors seen = []) : isBlank t.id = false ∧ t.id ∉ seen.ids := by
  rw [idErrors] at h
  split_ifs at h with hBlank hSeen
  exact ⟨Bool.eq_false_iff.mpr hBlank, hSeen⟩

theorem rangeErrors_eq_nil (h : t.rangeErrors = []) : t.lo < t.hi := by
  rw [rangeErrors] at h
  by_contra hRange
  rw [if_pos (UInt16.not_lt.mp hRange)] at h
  cases h

theorem overlapErrors_eq_nil (h : t.overlapErrors seen = []) {other : String × UInt16 × UInt16}
    (hMem : other ∈ seen.ranges) : t.hi < other.2.1 ∨ other.2.2 < t.lo := by
  obtain ⟨name, olo, ohi⟩ := other
  have hNone := filterMap_eq_nil_iff.mp h _ hMem
  by_contra hMeet
  rw [not_or, UInt16.not_lt, UInt16.not_lt] at hMeet
  dsimp only at hNone
  rw [if_pos hMeet.symm] at hNone
  cases hNone

theorem errors_eq_nil (h : t.errors seen production = []) :
    t.id ∉ seen.ids ∧ t.lo < t.hi ∧ (∀ other ∈ seen.ranges, t.hi < other.2.1 ∨ other.2.2 < t.lo) ∧
      (t.record seen).ids = t.id :: seen.ids := by
  rw [errors] at h
  simp only [append_eq_nil_iff] at h
  obtain ⟨⟨⟨⟨hId, -⟩, hRange⟩, -⟩, hOverlap⟩ := h
  obtain ⟨hBlank, hNew⟩ := idErrors_eq_nil hId
  refine ⟨hNew, rangeErrors_eq_nil hRange, fun other => overlapErrors_eq_nil hOverlap, ?_⟩
  rw [record, hBlank]
  rfl

end TenantConfig

theorem validateTenants_eq_nil {production : Bool} {seen : Seen} {tenants : List TenantConfig}
    (h : validateTenants production seen tenants = []) :
    (∀ t ∈ tenants, t.lo < t.hi ∧ t.id ∉ seen.ids ∧ ∀ other ∈ seen.ranges, t.hi < other.2.1 ∨ other.2.2 < t.lo) ∧
      tenants.Pairwise Apart := by
  induction tenants generalizing seen with
  | nil => exact ⟨forall_mem_nil _, .nil⟩
  | cons t rest ih =>
    rw [validateTenants, append_eq_nil_iff] at h
    obtain ⟨hNew, hRange, hFree, hIds⟩ := TenantConfig.errors_eq_nil h.1
    obtain ⟨hRest, hPairwise⟩ := ih h.2
    refine ⟨forall_mem_cons.mpr ⟨⟨hRange, hNew, hFree⟩, fun t' hMem => ?_⟩, ?_⟩
    · obtain ⟨hRange', hNew', hFree'⟩ := hRest t' hMem
      rw [hIds, mem_cons, not_or] at hNew'
      exact ⟨hRange', hNew'.2, fun other hOther => hFree' other (mem_append_left _ hOther)⟩
    refine pairwise_cons.mpr ⟨fun t' hMem => ?_, hPairwise⟩
    obtain ⟨-, hNew', hFree'⟩ := hRest t' hMem
    rw [hIds, mem_cons, not_or] at hNew'
    have hSelf := hFree' (t.id, t.lo, t.hi) (mem_append_right _ (mem_singleton_self _))
    exact ⟨fun hEq => hNew'.1 hEq.symm, hSelf.symm⟩

theorem validate_ok {cfg : TurnaConfig} (h : cfg.validate = .ok ()) :
    cfg.relay.minPort < cfg.relay.maxPort ∧ (∀ t ∈ cfg.tenants, t.lo < t.hi) ∧ cfg.tenants.Pairwise Apart := by
  rw [TurnaConfig.validate] at h
  split at h
  · next hEmpty =>
    rw [List.isEmpty_iff, List.append_eq_nil_iff] at hEmpty
    obtain ⟨hTenants, hPairwise⟩ := validateTenants_eq_nil hEmpty.2
    exact ⟨validateRelay_eq_nil hEmpty.1, fun t hMem => (hTenants t hMem).1, hPairwise⟩
  · cases h

/-! ## Port routing under an accepted configuration -/

namespace TurnaConfig

variable {cfg : TurnaConfig} {seeds : Option String → UInt32}

theorem hasPool_store {i : Nat} (h : (cfg.store seeds).HasPool (some i)) : i < cfg.tenants.length := by
  have hi := h i rfl
  rw [store, configured_eq, length_map, length_map] at hi
  exact hi

theorem poolAt_store {i : Nat} (hi : i < cfg.tenants.length) :
    (cfg.store seeds).poolAt (some i) = .new cfg.tenants[i].lo cfg.tenants[i].hi (seeds (some cfg.tenants[i].id)) := by
  rw [store, configured_eq, poolAt, getElem?_map, getElem?_map, getElem?_eq_getElem hi]
  rfl

theorem poolAt_store_none :
    (cfg.store seeds).poolAt none = .new cfg.relay.minPort cfg.relay.maxPort (seeds none) := by
  rw [store, configured_eq]
  rfl

theorem exists_poolAt_store (h : cfg.validate = .ok ()) {id : PoolId} (hPool : (cfg.store seeds).HasPool id) :
    ∃ minPort maxPort random, minPort < maxPort ∧ (cfg.store seeds).poolAt id = .new minPort maxPort random := by
  obtain ⟨hBase, hTenants, -⟩ := validate_ok h
  cases id with
  | none => exact ⟨_, _, _, hBase, poolAt_store_none⟩
  | some i =>
    have hi := hasPool_store hPool
    exact ⟨_, _, _, hTenants _ (getElem_mem hi), poolAt_store hi⟩

theorem contains_new {minPort maxPort port : UInt16} {random : UInt32} :
    (PortAllocator.new minPort maxPort random).contains port = true ↔ minPort ≤ port ∧ port ≤ maxPort :=
  PortAllocator.contains_iff _

theorem ranges_apart {lo hi lo' hi' port : UInt16} (h : hi < lo' ∨ hi' < lo) (hIn : lo ≤ port ∧ port ≤ hi)
    (hIn' : lo' ≤ port ∧ port ≤ hi') : False := by
  simp only [UInt16.lt_iff_toNat_lt, UInt16.le_iff_toNat_le] at h hIn hIn'
  omega

section

variable (h : cfg.validate = .ok ())
include h

theorem tenants_apart {i j : Nat} (hi : i < cfg.tenants.length)
    (hj : j < cfg.tenants.length) {port : UInt16} (hIn : cfg.tenants[i].lo ≤ port ∧ port ≤ cfg.tenants[i].hi)
    (hIn' : cfg.tenants[j].lo ≤ port ∧ port ≤ cfg.tenants[j].hi) : i = j := by
  have hPairwise := pairwise_iff_getElem.mp (validate_ok h).2.2
  obtain hLt | hEq | hLt := Nat.lt_trichotomy i j
  · exact (ranges_apart (hPairwise i j hi hj hLt).range hIn hIn').elim
  · exact hEq
  · exact (ranges_apart (hPairwise j i hj hi hLt).range hIn' hIn).elim

theorem routed_store (hApart : cfg.BaseApart) : (cfg.store seeds).Routed := by
  have hBase : ∀ i (hi : i < cfg.tenants.length) port, cfg.relay.minPort ≤ port ∧ port ≤ cfg.relay.maxPort →
      cfg.tenants[i].lo ≤ port ∧ port ≤ cfg.tenants[i].hi → False :=
    fun i hi port hIn hIn' => ranges_apart (hApart _ (getElem_mem hi)) hIn' hIn
  intro id id' hPool hPool' port hIn hIn'
  cases id with
  | none =>
    rw [poolAt_store_none, contains_new] at hIn
    cases id' with
    | none => rfl
    | some j =>
      have hj := hasPool_store hPool'
      rw [poolAt_store hj, contains_new] at hIn'
      exact (hBase j hj port hIn hIn').elim
  | some i =>
    have hi := hasPool_store hPool
    rw [poolAt_store hi, contains_new] at hIn
    cases id' with
    | none =>
      rw [poolAt_store_none, contains_new] at hIn'
      exact (hBase i hi port hIn' hIn).elim
    | some j =>
      have hj := hasPool_store hPool'
      rw [poolAt_store hj, contains_new] at hIn'
      exact congrArg some (tenants_apart h hi hj hIn hIn')

theorem routingInvariant_store : RoutingInvariant (cfg.store seeds) (cfg.store seeds) where
  pools :=
    { routes := rfl
      minPort := rfl
      maxPort := rfl
      ready := by
        intro id hPool
        obtain ⟨minPort, maxPort, random, hRange, hNew⟩ := exists_poolAt_store h hPool
        rw [hNew]
        exact PortAllocator.ready_new hRange random }
  charged c a hGet := by
    rw [store, configured_eq] at hGet
    cases hGet

theorem handsOutHome_store (hApart : cfg.BaseApart) : HandsOutHome (cfg.store seeds) := by
  intro owner hOwner port hHands
  have hPool := (cfg.store seeds).hasPool_poolId owner
  obtain ⟨minPort, maxPort, random, hRange, hNew⟩ := exists_poolAt_store h hPool
  rw [AllocationStore.pool, hNew] at hHands
  have hHome := (routed_store h hApart).poolIdForPort hPool (by rw [hNew, contains_new]; exact hHands.contains hRange)
  exact ⟨hHome, tenantIdForPort_of_poolId hOwner hHome⟩

/-- A port of both a tenant and the base is handed out by the base pool and returned to the tenant's. -/
theorem not_handsOutHome {t : TenantConfig} (hMem : t ∈ cfg.tenants)
    (hMeet : cfg.relay.minPort ≤ t.hi ∧ t.lo ≤ cfg.relay.maxPort) : ∃ seeds, ¬ HandsOutHome (cfg.store seeds) := by
  obtain ⟨hBase, hTenants, -⟩ := validate_ok h
  have hRange := hTenants t hMem
  obtain ⟨port, hIn, hIn'⟩ : ∃ port, (cfg.relay.minPort ≤ port ∧ port ≤ cfg.relay.maxPort) ∧ t.lo ≤ port ∧ port ≤ t.hi := by
    by_cases hOrder : cfg.relay.minPort ≤ t.lo
    · exact ⟨t.lo, ⟨hOrder, hMeet.2⟩, UInt16.le_refl _, UInt16.le_of_lt hRange⟩
    · exact ⟨cfg.relay.minPort, ⟨UInt16.le_refl _, UInt16.le_of_lt hBase⟩,
        UInt16.le_of_lt (UInt16.not_le.mp hOrder), hMeet.1⟩
  obtain ⟨random, hHands⟩ := PortAllocator.exists_handsOut hBase hIn.1 hIn.2
  refine ⟨fun _ => random, fun hHome => ?_⟩
  have hBack := (hHome none (mem_cons_self ..) port (by
    change ((cfg.store _).poolAt none).HandsOut port
    rw [poolAt_store_none]
    exact hHands)).1
  obtain ⟨i, hi, rfl⟩ := getElem_of_mem hMem
  have hPool : (cfg.store fun _ => random).tenantPools.length = cfg.tenants.length := by
    rw [store, configured_eq, length_map, length_map]
  have hNone := findIdx?_eq_none_iff.mp hBack _ (getElem_mem (hPool.symm ▸ hi))
  rw [← poolAt_some, poolAt_store hi, contains_new.mpr hIn'] at hNone
  cases hNone

end

end TurnaConfig

def nested : TurnaConfig where
  production := false
  relay := ⟨49152, 65535, 0⟩
  tenants := [⟨"acme", "acme.example", (50000, 50100), "s3cret", [], 0, .default⟩]

theorem base_port_routed_to_tenant : nested.validate = .ok () ∧ ∃ seeds, ¬ HandsOutHome (nested.store seeds) :=
  ⟨by decide +kernel, nested.not_handsOutHome (by decide +kernel) (mem_singleton_self _) (by decide)⟩

theorem routing_iff {cfg : TurnaConfig} (hAccepted : cfg.validate = .ok ()) :
    (∀ seeds, HandsOutHome (cfg.store seeds) ∧ ∀ ops,
      Trace.Allowed StoreOp.apply (fun s op => op.Draws s) (cfg.store seeds) ops →
        PortsHome (Trace.run StoreOp.apply (cfg.store seeds) ops)) ↔ cfg.BaseApart := by
  constructor
  · intro hHome t hMem
    by_contra hMeet
    rw [not_or, UInt16.not_lt, UInt16.not_lt] at hMeet
    obtain ⟨seeds, hNot⟩ := cfg.not_handsOutHome hAccepted hMem hMeet
    exact hNot (hHome seeds).1
  · intro hApart seeds
    have hRouted := @TurnaConfig.routed_store cfg seeds hAccepted hApart
    refine ⟨cfg.handsOutHome_store hAccepted hApart, fun ops hRun => ?_⟩
    exact (hRun.invariant (RoutingInvariant (cfg.store seeds)) (fun s op h hDraws => h.apply hRouted hDraws)
      (cfg.routingInvariant_store hAccepted)).portsHome hRouted

def separate : TurnaConfig where
  production := true
  relay := ⟨49152, 65535, 1000⟩
  tenants := [⟨"acme", "acme.example", (40000, 40999), "s3cret", [], 100, .default⟩,
    ⟨"globex", "globex.example", (41000, 41999), "", [⟨"alice", "pw"⟩], 0, .default⟩]

theorem routing_iff_separate : separate.BaseApart ∧ ∀ seeds, HandsOutHome (separate.store seeds) := by
  have hApart : separate.BaseApart := by
    intro t hMem
    obtain rfl | hMem := mem_cons.mp hMem
    · exact .inl (by decide)
    · obtain rfl := mem_singleton.mp hMem
      exact .inl (by decide)
  exact ⟨hApart, fun seeds => ((routing_iff (by decide +kernel)).mpr hApart seeds).1⟩

/-! ## The runtime-changeable limits -/

structure DynamicLimits where
  maxBytesPerSecPerAllocation : Nat
  maxPerUser : Nat
  maxAllocations : Nat
  deriving DecidableEq, Repr

structure RuntimeValidationCtx where
  minPort : UInt16
  maxPort : UInt16
  production : Bool
  allowUnlimitedBandwidth : Bool

def DynamicLimits.validate (limits : DynamicLimits) (ctx : RuntimeValidationCtx) : List String :=
  (if ctx.minPort < ctx.maxPort then
    let usable := (ctx.maxPort - ctx.minPort).toNat + 1
    if usable < limits.maxAllocations then
      [s!"max_allocations ({limits.maxAllocations}) exceeds usable relay ports ({usable}) for range " ++
        s!"[{ctx.minPort}, {ctx.maxPort}] — a cap above the port count is unreachable"]
    else []
  else []) ++
  if ctx.production && limits.maxBytesPerSecPerAllocation == 0 && !ctx.allowUnlimitedBandwidth then
    ["max_bytes_per_sec_per_allocation is 0 (unlimited) in production; set a per-allocation " ++
      "byte/sec cap (allow_unlimited_bandwidth is a restart-only opt-in)"]
  else []

structure DynamicLimitsPatch where
  maxBytesPerSecPerAllocation : Option Nat
  maxPerUser : Option Nat
  maxAllocations : Option Nat
  deriving DecidableEq, Repr

def DynamicLimitsPatch.isEmpty (patch : DynamicLimitsPatch) : Bool :=
  patch.maxBytesPerSecPerAllocation.isNone && patch.maxPerUser.isNone && patch.maxAllocations.isNone

structure RuntimeSnapshot where
  version : Nat
  limits : DynamicLimits
  deriving DecidableEq, Repr

structure AppliedConfig where
  snapshot : RuntimeSnapshot
  changed : Bool
  deriving DecidableEq, Repr

inductive ConfigUpdateError where
  | versionMismatch (expected actual : Nat)
  | validationFailed (errors : List String)
  | versionOverflow
  deriving DecidableEq, Repr

def ConfigUpdateError.display : ConfigUpdateError → String
  | .versionMismatch expected actual => s!"version mismatch: expected {expected}, node is at {actual}"
  | .validationFailed errors => "config validation failed: " ++ "; ".intercalate errors
  | .versionOverflow => "config version counter overflow"

namespace RuntimeSnapshot

variable (s : RuntimeSnapshot)

def candidate (patch : DynamicLimitsPatch) : DynamicLimits where
  maxBytesPerSecPerAllocation := patch.maxBytesPerSecPerAllocation.getD s.limits.maxBytesPerSecPerAllocation
  maxPerUser := patch.maxPerUser.getD s.limits.maxPerUser
  maxAllocations := patch.maxAllocations.getD s.limits.maxAllocations

def apply (patch : DynamicLimitsPatch) (expectedVersion : Nat) (ctx : RuntimeValidationCtx) :
    Except ConfigUpdateError AppliedConfig :=
  if expectedVersion ≠ s.version then .error (.versionMismatch expectedVersion s.version)
  else if s.candidate patch = s.limits then .ok ⟨s, false⟩
  else if (s.candidate patch).validate ctx ≠ [] then .error (.validationFailed ((s.candidate patch).validate ctx))
  else if s.version + 1 < 2 ^ 64 then .ok ⟨⟨s.version + 1, s.candidate patch⟩, true⟩
  else .error .versionOverflow

variable {s} {patch : DynamicLimitsPatch} {expectedVersion : Nat} {ctx : RuntimeValidationCtx} {applied : AppliedConfig}

theorem apply_changed (h : s.apply patch expectedVersion ctx = .ok applied) (hChanged : applied.changed = true) :
    expectedVersion = s.version ∧ applied.snapshot.version = s.version + 1 ∧
      applied.snapshot.limits.validate ctx = [] := by
  unfold apply at h
  split at h
  · cases h
  next hVersion =>
  split at h
  · cases h
    cases hChanged
  split at h
  · cases h
  next hValid =>
  split at h
  · cases h
    exact ⟨not_not.mp hVersion, rfl, not_not.mp hValid⟩
  · cases h

theorem apply_not_mismatch {expected actual : Nat} (hVersion : expectedVersion = s.version) :
    s.apply patch expectedVersion ctx ≠ .error (.versionMismatch expected actual) := by
  intro h
  unfold apply at h
  rw [if_neg (not_not.mpr hVersion)] at h
  split at h
  · cases h
  split at h
  · cases h
  split at h <;> cases h

end RuntimeSnapshot

end Turna.Config
