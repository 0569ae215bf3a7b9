import Turna.Session.Store

/-! # Publication of limits

The dataplane reads one runtime snapshot and one override snapshot. The management plane replaces a
whole snapshot at a time.
-/

namespace Turna.Session
open Lib

def SessionError.display : SessionError → String
  | .maxAllocations => "max allocations reached"
  | .notFound => "allocation not found"
  | .noPortsAvailable => "no relay ports available"
  | .permissionDenied peer => "permission denied for peer " ++ peer.toString
  | .channelNotFound channel => "channel not found: 0x" ++ String.ofList (Text.padded 16 4 channel.toNat)
  | .bandwidthExceeded username => "bandwidth quota exceeded for user " ++ username
  | .maxAllocationsPerUser => "max allocations per user reached"
  | .migrationTargetInUse => "migration target address already in use"
  | .channelConflict => "channel/peer binding conflict"
  | .allocationExists => "allocation already exists for this client address"
  | .limitExceeded => "per-allocation resource limit exceeded"
  | .cacheGenerationOverflow => "user-limits cache generation overflow"

def UserLimitsOverride.isInheritOnly (o : UserLimitsOverride) : Bool :=
  [o.maxAllocations, o.maxBytesPerSecPerAllocation, o.maxLifetimeSecs].all fun limit =>
    limit.all fun limit => limit.mode == .inherit

def UserLimitsSnapshot.sameAs (s s' : UserLimitsSnapshot) : Bool :=
  s.generation == s'.generation && s.bootstrapMaxLifetimeSecs == s'.bootstrapMaxLifetimeSecs &&
    s.global == s'.global && s.tenants.sameAs s'.tenants && s.users.sameAs s'.users

structure Published where
  runtime : RuntimeLimits
  userLimits : UserLimitsSnapshot

namespace Published

variable (p : Published)

def publishRuntime (next : RuntimeLimits) : Published := { p with runtime := next }

/-- A snapshot that changes nothing is not published and does not count. -/
def publishUserLimits (next : UserLimitsSnapshot) : Except SessionError Unit × Published :=
  let next := { next with generation := p.userLimits.generation }
  if next.sameAs p.userLimits then (.ok (), p)
  else if p.userLimits.generation + 1 < 2 ^ 64 then
    (.ok (),
      { p with
        userLimits := { next with generation := p.userLimits.generation + 1 } })
  else (.error .cacheGenerationOverflow, p)

def limitsSnapshotWithOverride (scope realm tenant username : String) (value : UserLimitsOverride) :
    Except SessionError UserLimitsSnapshot :=
  let s := p.userLimits
  match scope with
  | "global" => .ok { s with global := value }
  | "tenant" =>
    .ok { s with
      tenants :=
        if value.isInheritOnly then s.tenants.remove (realm, tenant) else s.tenants.insert (realm, tenant) value }
  | "user" =>
    .ok { s with
      users :=
        if value.isInheritOnly then s.users.remove (realm, tenant, username)
        else s.users.insert (realm, tenant, username) value }
  | _ => .error .limitExceeded

end Published

end Turna.Session
