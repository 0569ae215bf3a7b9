import Turna.Lib.HashMap
import Turna.Stun.Message

/-! # The subject behind a credential

Quotas are counted per subject, so the holder of one credential should always be the same one.
-/

namespace Turna.Auth
open Lib Crypto Stun Option

inductive AuthError where
  | missingCredentials
  | invalidCredentials
  | expired
  | integrityFailed
  | badRequest
  | pending (started : Bool)
  | unavailable
  | throttled
  deriving DecidableEq, Repr

structure UserKeys where
  keyMd5 : Bytes
  keySha256 : Bytes
  deriving DecidableEq

inductive WebhookLookup where
  | found (keys : UserKeys)
  | notFound
  | unavailable
  | pending (started : Bool)
  | throttled

inductive AuthMode where
  | longTerm (realm : String) (users : HashMap String UserKeys) (userhashes : HashMap (List.Vector UInt8 32) String)
      (webhook : Bool)
  | sharedSecret (realm : String) (secret : Bytes) (previous : Option Bytes)
  | oauth (realm : String) (asRsKeys : List Bytes) (kidKeys : List (String × Bytes)) (strictKid : Bool)
      (serverName asIdentity : String)

structure AuthEnv where
  crypto : Primitives
  nowSecs : Nat
  requireSha256 : Bool
  credentialClockSkewSecs : Nat
  webhook : String → WebhookLookup

structure Validated where
  key : Bytes
  maxLifetimeSecs : Option UInt32
  username : String

def splitOnceColon (s : String) : Option (String × String) :=
  let chars := s.toList
  if ':' ∈ chars then
    some (String.ofList (chars.takeWhile (· ≠ ':')), String.ofList ((chars.dropWhile (· ≠ ':')).drop 1))
  else none

namespace AuthMode

variable (mode : AuthMode)

def realm : AuthMode → String
  | .longTerm realm .. => realm
  | .sharedSecret realm .. => realm
  | .oauth realm .. => realm

def oauthIdentity : AuthMode → Option String
  | .oauth _ _ _ _ _ asIdentity => some asIdentity
  | _ => none

/-- The identity behind a USERNAME. A shared-secret username is `<expiry>:<user>`. -/
def subjectOf (mode : AuthMode) (username : String) : String :=
  match mode with
  | .sharedSecret .. => ((splitOnceColon username).map Prod.snd).getD username
  | .longTerm .. => username
  | .oauth .. => username

def resolveUsername (mode : AuthMode) (msg : StunMessage) : Except AuthError String :=
  match msg.getUsername with
  | some name => .ok name
  | none =>
    match msg.getUserhash with
    | none => .error .missingCredentials
    | some hash =>
      match mode with
      | .longTerm _ _ userhashes _ =>
        match userhashes.get hash with
        | some name => .ok name
        | none => .error .invalidCredentials
      | _ => .error .invalidCredentials

variable (env : AuthEnv) (msg : StunMessage) (raw : Bytes)

def pickKey (sha256 : Bool) (keys : UserKeys) : Bytes := if sha256 then keys.keySha256 else keys.keyMd5

def integrityOk (env : AuthEnv) (msg : StunMessage) (raw key : Bytes) : Bool :=
  if msg.getMessageIntegritySha256.isSome then msg.verifyIntegritySha256 env.crypto raw key
  else msg.verifyIntegrity env.crypto raw key

def longTermUserKey (users : HashMap String UserKeys) (webhook : Bool) (username : String) :
    Except AuthError Bytes :=
  let sha256 := msg.getMessageIntegritySha256.isSome
  match users.get username with
  | some keys => .ok (pickKey sha256 keys)
  | none =>
    if webhook then
      match env.webhook username with
      | .found keys => if pickKey sha256 keys = [] then .error .invalidCredentials else .ok (pickKey sha256 keys)
      | .notFound => .error .invalidCredentials
      | .unavailable => .error .unavailable
      | .pending started => .error (.pending started)
      | .throttled => .error .throttled
    else .error .invalidCredentials

/-- The password of a time-limited credential is the base64 of an HMAC of the username. -/
def deriveSecretKey (realm username : String) (secret : Bytes) : Bytes :=
  let password := env.crypto.base64 (env.crypto.hmacSha1 secret (Utf8.encode username)).toList
  if msg.getMessageIntegritySha256.isSome then longTermKeySha256 env.crypto username realm password
  else longTermKey env.crypto username realm password

def saturatingAddU64 (a b : Nat) : Nat := min (a + b) (2 ^ 64 - 1)

def sharedSecretKey (realm : String) (secret : Bytes) (previous : Option Bytes) (username : String) :
    Except AuthError Bytes :=
  match splitOnceColon username with
  | none => .error .invalidCredentials
  | some (ts, _) =>
    match Text.parseU64 ts.toList with
    | none => .error .invalidCredentials
    | some expiry =>
      if saturatingAddU64 expiry env.credentialClockSkewSecs < env.nowSecs then .error .expired
      else
        let primary := deriveSecretKey env msg realm username secret
        match previous with
        | some prev =>
          let old := deriveSecretKey env msg realm username prev
          if !integrityOk env msg raw primary && integrityOk env msg raw old then .ok old else .ok primary
        | none => .ok primary

/-! ## OAuth -/

def oauthClockSkewSecs : Nat := 5

structure OpenedToken where
  macKey : Bytes
  timestamp : Nat
  lifetime : UInt32

def openAccessToken (token : Bytes) (keys : List Bytes) (serverName : String) : Except AuthError OpenedToken :=
  if token.length < 2 then .error .invalidCredentials
  else
    let nonceLen := (token.uint16At 0).toNat
    let rest := token.drop 2
    if rest.length < nonceLen then .error .invalidCredentials
    else
      match keys.findSome? (fun key =>
          env.crypto.aeadDecrypt key (rest.take nonceLen) (Utf8.encode serverName) (rest.drop nonceLen)) with
      | none => .error .invalidCredentials
      | some plaintext =>
        if plaintext.length < 2 then .error .invalidCredentials
        else
          let keyLen := (plaintext.uint16At 0).toNat
          if plaintext.length < 2 + keyLen + 8 + 4 then .error .invalidCredentials
          else
            .ok
              { macKey := plaintext.slice 2 keyLen
                timestamp := (plaintext.uint64At (2 + keyLen)).toNat
                lifetime := plaintext.uint32At (2 + keyLen + 8) }

def tokenTimeValid (timestamp : Nat) (lifetime : UInt32) (nowSecs skewSecs : Nat) : Bool :=
  let ts := timestamp / 2 ^ 16
  decide (max ts nowSecs - min ts nowSecs < lifetime.toNat + skewSecs)

def decryptAccessToken (token : Bytes) (keys : List Bytes) (serverName : String) :
    Except AuthError (Bytes × UInt32) := do
  let opened ← openAccessToken env token keys serverName
  if !tokenTimeValid opened.timestamp opened.lifetime env.nowSecs oauthClockSkewSecs then .error .expired
  else
    let remaining := opened.timestamp / 2 ^ 16 + opened.lifetime.toNat - env.nowSecs
    return (opened.macKey, UInt32.ofNat (min remaining (2 ^ 32 - 1)))

def candidateKeys (asRsKeys : List Bytes) (kidKeys : List (String × Bytes)) (strictKid : Bool) :
    Except AuthError (List Bytes) :=
  let trialAll := kidKeys.map Prod.snd ++ asRsKeys
  match msg.getUsername with
  | some kid =>
    match kidKeys.find? (fun entry => entry.1 == kid) with
    | some (_, key) => .ok [key]
    | none => if strictKid then .error .invalidCredentials else .ok trialAll
  | none => if strictKid then .error .missingCredentials else .ok trialAll

def validateOauth (asRsKeys : List Bytes) (kidKeys : List (String × Bytes)) (strictKid : Bool)
    (serverName : String) : Except AuthError (Bytes × UInt32) :=
  match msg.getAccessToken with
  | none => .error .missingCredentials
  | some token => do
    let keys ← candidateKeys msg asRsKeys kidKeys strictKid
    let (macKey, remaining) ← decryptAccessToken env token keys serverName
    if macKey = [] then .error .invalidCredentials
    else if integrityOk env msg raw macKey then return (macKey, remaining)
    else .error .integrityFailed

/-! ## Validation -/

/-- A PASSWORD-ALGORITHM must agree with the integrity attribute that is present. -/
def algorithmConsistent (msg : StunMessage) : Bool :=
  match msg.getPasswordAlgorithm with
  | none => true
  | some algo =>
    if algo = passwordAlgorithmSha256 then msg.getMessageIntegritySha256.isSome
    else if algo = passwordAlgorithmMd5 then !msg.getMessageIntegritySha256.isSome
    else false

def credentialKey (mode : AuthMode) (username : String) : Except AuthError Bytes :=
  match mode with
  | .longTerm _ users _ webhook => longTermUserKey env msg users webhook username
  | .sharedSecret realm secret previous => sharedSecretKey env msg raw realm secret previous username
  | .oauth .. => .error .invalidCredentials

def validateCredential (mode : AuthMode) : Except AuthError Validated :=
  if !msg.hasUserIdentity then .error .missingCredentials
  else
    match msg.getRealm with
    | none => .error .missingCredentials
    | some realm =>
      if realm ≠ mode.realm then .error .invalidCredentials
      else do
        let username ← resolveUsername mode msg
        if !msg.getMessageIntegritySha256.isSome && env.requireSha256 then .error .invalidCredentials
        else
          let key ← credentialKey env msg raw mode username
          if !algorithmConsistent msg then .error .badRequest
          else if !integrityOk env msg raw key then .error .integrityFailed
          else return { key, maxLifetimeSecs := none, username }

def validateIdentity : AuthMode → Except AuthError Validated
  | .oauth _ asRsKeys kidKeys strictKid serverName _ => do
    let (macKey, lifetime) ← validateOauth env msg raw asRsKeys kidKeys strictKid serverName
    return { key := macKey, maxLifetimeSecs := some lifetime, username := msg.getUsername.getD "" }
  | mode => validateCredential env msg raw mode

end AuthMode

structure AuthResolution where
  tenantId : Option String
  realm : String
  key : Bytes
  subject : String
  maxLifetimeSecs : Option UInt32

structure AuthRegistry where
  tenants : HashMap String (String × AuthMode)
  base : AuthMode
  baseRealm : String

namespace AuthRegistry

variable (registry : AuthRegistry) (env : AuthEnv) (msg : StunMessage) (raw : Bytes)

def resolve (tenantId : Option String) (realm : String) (mode : AuthMode) : Except AuthError AuthResolution := do
  let v ← mode.validateIdentity env msg raw
  return { tenantId, realm, key := v.key, subject := mode.subjectOf v.username, maxLifetimeSecs := v.maxLifetimeSecs }

def validateOpts : Except AuthError AuthResolution :=
  match msg.getRealm with
  | none => .error .missingCredentials
  | some realm =>
    match registry.tenants.get realm with
    | some (tenantId, mode) => resolve env msg raw (some tenantId) realm mode
    | none =>
      if realm = registry.baseRealm then resolve env msg raw none realm registry.base
      else .error .invalidCredentials

end AuthRegistry

/-! ## The subject behind a credential -/

inductive Credential where
  | user (realm username : String)
  | rest (realm userid : String)
  | token (token : Bytes)
  deriving DecidableEq

def AuthMode.credential (mode : AuthMode) (realm : String) (msg : StunMessage) : Option Credential :=
  match mode with
  | .longTerm .. => (mode.resolveUsername msg).toOption.map (.user realm)
  | .sharedSecret .. => ((mode.resolveUsername msg).toOption.bind splitOnceColon).map fun parts => .rest realm parts.2
  | .oauth .. => msg.getAccessToken.map .token

namespace AuthRegistry

def backend (registry : AuthRegistry) (realm : String) : Option (Option String × AuthMode) :=
  match registry.tenants.get realm with
  | some (tenantId, mode) => some (some tenantId, mode)
  | none => if realm = registry.baseRealm then some (none, registry.base) else none

def credential (registry : AuthRegistry) (msg : StunMessage) : Option Credential :=
  msg.getRealm.bind fun realm => (registry.backend realm).bind fun backend => backend.2.credential realm msg

end AuthRegistry

def AuthResolution.identity (r : AuthResolution) : String × Option String × String := (r.realm, r.tenantId, r.subject)

section Accepted

variable {mode : AuthMode} {registry : AuthRegistry} {env : AuthEnv} {msg : StunMessage} {raw : Bytes}

theorem validateCredential_ok {v : Validated} (h : AuthMode.validateCredential env msg raw mode = .ok v) :
    mode.resolveUsername msg = .ok v.username ∧ AuthMode.credentialKey env msg raw mode v.username = .ok v.key := by
  rw [AuthMode.validateCredential] at h
  split at h
  · cases h
  split at h
  · cases h
  split at h
  · cases h
  cases hName : mode.resolveUsername msg with
  | error e =>
    rw [hName] at h
    cases h
  | ok username =>
    rw [hName] at h
    change (if _ then _ else _) = _ at h
    split at h
    · cases h
    cases hKey : AuthMode.credentialKey env msg raw mode username with
    | error e =>
      rw [hKey] at h
      cases h
    | ok key =>
      rw [hKey] at h
      change (if _ then _ else _) = _ at h
      split at h
      · cases h
      split at h
      · cases h
      · cases h
        exact ⟨rfl, hKey⟩

theorem validateOauth_ok {asRsKeys : List Bytes} {kidKeys : List (String × Bytes)} {strictKid : Bool}
    {serverName : String} {result : Bytes × UInt32}
    (h : AuthMode.validateOauth env msg raw asRsKeys kidKeys strictKid serverName = .ok result) :
    ∃ token, msg.getAccessToken = some token := by
  rw [AuthMode.validateOauth] at h
  split at h
  · cases h
  · next token hToken => exact ⟨token, hToken⟩

theorem subject_eq {v : Validated} (h : mode.validateIdentity env msg raw = .ok v) {realm : String} {c : Credential}
    (hCredential : mode.credential realm msg = some c) : mode.subjectOf v.username =
      match c with
      | .user _ username => username
      | .rest _ userid => userid
      | .token _ => msg.getUsername.getD "" := by
  cases mode with
  | longTerm _ users userhashes webhook =>
    obtain ⟨hName, -⟩ := validateCredential_ok h
    rw [AuthMode.credential, hName] at hCredential
    cases hCredential
    rfl
  | sharedSecret _ secret previous =>
    obtain ⟨hName, -⟩ := validateCredential_ok h
    rw [AuthMode.credential, hName] at hCredential
    obtain ⟨parts, hParts, rfl⟩ := map_eq_some_iff.mp hCredential
    replace hParts : splitOnceColon v.username = some parts := hParts
    rw [AuthMode.subjectOf, hParts]
    rfl
  | oauth _ asRsKeys kidKeys strictKid serverName _ =>
    obtain ⟨token, -, rfl⟩ := map_eq_some_iff.mp hCredential
    rw [AuthMode.validateIdentity] at h
    cases hOauth : AuthMode.validateOauth env msg raw asRsKeys kidKeys strictKid serverName with
    | error e =>
      rw [hOauth] at h
      cases h
    | ok result =>
      rw [hOauth] at h
      cases h
      rfl

variable {r : AuthResolution}

section

variable (h : registry.validateOpts env msg raw = .ok r)
include h

theorem validateOpts_ok :
    ∃ realm mode v, msg.getRealm = some realm ∧ registry.backend realm = some (r.tenantId, mode) ∧ r.realm = realm ∧
      mode.validateIdentity env msg raw = .ok v ∧ r.subject = mode.subjectOf v.username := by
  have hResolve : ∀ {tenantId realm mode}, AuthRegistry.resolve env msg raw tenantId realm mode = .ok r →
      r.tenantId = tenantId ∧ r.realm = realm ∧
        ∃ v, mode.validateIdentity env msg raw = .ok v ∧ r.subject = mode.subjectOf v.username := by
    intro tenantId realm mode hOk
    rw [AuthRegistry.resolve] at hOk
    cases hValid : mode.validateIdentity env msg raw with
    | error e =>
      rw [hValid] at hOk
      cases hOk
    | ok v =>
      rw [hValid] at hOk
      cases hOk
      exact ⟨rfl, rfl, v, rfl, rfl⟩
  rw [AuthRegistry.validateOpts] at h
  split at h
  · cases h
  next realm hRealm =>
  rw [hRealm]
  simp only [AuthRegistry.backend]
  split at h
  · next tenantId mode hTenant =>
    obtain ⟨hId, rfl, v, hValid, hSubject⟩ := hResolve h
    exact ⟨r.realm, mode, v, rfl, by rw [hTenant, hId], rfl, hValid, hSubject⟩
  next hTenant =>
  split at h
  · next hBase =>
    obtain ⟨hId, rfl, v, hValid, hSubject⟩ := hResolve h
    exact ⟨r.realm, registry.base, v, rfl, by rw [hTenant, hId]; exact if_pos hBase, rfl, hValid, hSubject⟩
  · cases h

/-- Only a token leaves the realm and the subject to other attributes. -/
theorem identity_eq {c : Credential} (hCredential : registry.credential msg = some c) :
    (registry.backend r.realm).map Prod.fst = some r.tenantId ∧
      match c with
      | .user realm username => r.realm = realm ∧ r.subject = username
      | .rest realm userid => r.realm = realm ∧ r.subject = userid
      | .token _ => msg.getRealm = some r.realm ∧ r.subject = msg.getUsername.getD "" := by
  obtain ⟨realm, mode, v, hRealm, hBackend, rfl, hValid, hSubject⟩ := validateOpts_ok h
  rw [AuthRegistry.credential, hRealm, bind_some, hBackend, bind_some] at hCredential
  rw [hSubject, subject_eq hValid hCredential, hBackend]
  refine ⟨rfl, ?_⟩
  cases mode with
  | longTerm =>
    obtain ⟨name, -, rfl⟩ := map_eq_some_iff.mp hCredential
    exact ⟨rfl, rfl⟩
  | sharedSecret =>
    obtain ⟨parts, -, rfl⟩ := map_eq_some_iff.mp hCredential
    exact ⟨rfl, rfl⟩
  | oauth =>
    obtain ⟨token, -, rfl⟩ := map_eq_some_iff.mp hCredential
    exact ⟨hRealm, rfl⟩

theorem credential_isSome : (registry.credential msg).isSome := by
  obtain ⟨realm, mode, v, hRealm, hBackend, -, hValid, -⟩ := validateOpts_ok h
  rw [AuthRegistry.credential, hRealm, bind_some, hBackend, bind_some]
  cases mode with
  | longTerm =>
    rw [AuthMode.credential, (validateCredential_ok hValid).1]
    rfl
  | sharedSecret =>
    obtain ⟨hName, hKey⟩ := validateCredential_ok hValid
    rw [AuthMode.credential, hName]
    rw [AuthMode.credentialKey, AuthMode.sharedSecretKey] at hKey
    split at hKey
    · cases hKey
    · next hParts => simp [Except.toOption, hParts]
  | oauth _ asRsKeys kidKeys strictKid serverName _ =>
    rw [AuthMode.validateIdentity] at hValid
    cases hOauth : AuthMode.validateOauth env msg raw asRsKeys kidKeys strictKid serverName with
    | error e =>
      rw [hOauth] at hValid
      cases hValid
    | ok result =>
      obtain ⟨token, hToken⟩ := validateOauth_ok hOauth
      rw [AuthMode.credential, hToken]
      rfl

end

end Accepted

/-- One credential is charged to one identity; with an access token, if realm and USERNAME are the same. -/
theorem one_subject_iff (registry : AuthRegistry) (env env' : AuthEnv) (msg msg' : StunMessage) (raw raw' : Bytes)
    (r r' : AuthResolution) (h : registry.validateOpts env msg raw = .ok r)
    (h' : registry.validateOpts env' msg' raw' = .ok r') (hSame : registry.credential msg = registry.credential msg') :
    r.identity = r'.identity ↔ ∀ token, registry.credential msg = some (.token token) →
      msg.getRealm = msg'.getRealm ∧ msg.getUsername.getD "" = msg'.getUsername.getD "" := by
  obtain ⟨c, hCredential⟩ := isSome_iff_exists.mp (credential_isSome h)
  obtain ⟨hTenant, hIdentity⟩ := identity_eq h hCredential
  obtain ⟨hTenant', hIdentity'⟩ := identity_eq h' (hSame ▸ hCredential)
  -- the tenant goes with the realm
  have hTenants : r.realm = r'.realm → r.tenantId = r'.tenantId := by
    intro hRealm
    rw [hRealm, hTenant'] at hTenant
    exact (some.inj hTenant).symm
  rw [hCredential]
  simp only [AuthResolution.identity, Prod.mk.injEq]
  cases c with
  | user realm username | rest realm userid =>
    refine iff_of_true ?_ nofun
    have hRealm := hIdentity.1.trans hIdentity'.1.symm
    exact ⟨hRealm, hTenants hRealm, hIdentity.2.trans hIdentity'.2.symm⟩
  | token token =>
    obtain ⟨hRealm, hSubject⟩ := hIdentity
    obtain ⟨hRealm', hSubject'⟩ := hIdentity'
    rw [hRealm, hRealm', hSubject, hSubject']
    constructor
    · rintro ⟨hEq, -, hName⟩ _ -
      exact ⟨congrArg some hEq, hName⟩
    intro hBoth
    obtain ⟨hEq, hName⟩ := hBoth token rfl
    exact ⟨some.inj hEq, hTenants (some.inj hEq), hName⟩

namespace Sample

def primitives : Primitives where
  hmacSha1 _ _ := .replicate 20 0
  hmacSha256 _ _ := .replicate 32 0
  md5 _ := .replicate 16 0
  sha256 _ := .replicate 32 0
  crc32 _ := 0
  base64 _ := ""
  aeadDecrypt _ _ _ _ := some [0, 1, 7, 0, 0, 0, 0, 0, 0, 0, 0, 0, 0, 14, 16]

def env : AuthEnv := ⟨primitives, 0, false, 0, fun _ => .notFound⟩

def wire (attributes : List Attribute) : Bytes :=
  ((StunMessage.mk .request .allocate (.replicate 12 0) attributes).encodeWithIntegrity primitives 512
    []).toOption.getD []

def arrived (attributes : List Attribute) : StunMessage :=
  (StunMessage.decode (wire attributes)).toOption.getD ⟨.request, .allocate, .replicate 12 0, []⟩

def tokens : AuthRegistry := ⟨.empty, .oauth "r" [[1]] [] false "turn" "as", "r"⟩

def users : AuthRegistry where
  tenants := .empty
  base := .longTerm "r" (HashMap.empty.insert "alice" ⟨[1], [1]⟩) (HashMap.empty.insert (.replicate 32 5) "alice") false
  baseRealm := "r"

def bearer (name : String) : List Attribute := [.username name, .realm "r", .accessToken [0, 0]]

def named : List Attribute := [.username "alice", .realm "r"]

def hashed : List Attribute := [.userHash (.replicate 32 5), .realm "r"]

end Sample

/-- The holder of one token is charged as whoever it says it is. -/
theorem token_of_two_subjects : Sample.tokens.credential (Sample.arrived (Sample.bearer "alice")) =
        Sample.tokens.credential (Sample.arrived (Sample.bearer "bob")) ∧
      (Sample.tokens.validateOpts Sample.env (Sample.arrived (Sample.bearer "alice"))
        (Sample.wire (Sample.bearer "alice"))).toOption.map AuthResolution.subject = some "alice" ∧
      (Sample.tokens.validateOpts Sample.env (Sample.arrived (Sample.bearer "bob"))
        (Sample.wire (Sample.bearer "bob"))).toOption.map AuthResolution.subject = some "bob" := by
  decide +kernel

theorem one_subject_by_hash :
    ∃ r r', Sample.users.validateOpts Sample.env (Sample.arrived Sample.named) (Sample.wire Sample.named) = .ok r ∧
      Sample.users.validateOpts Sample.env (Sample.arrived Sample.hashed) (Sample.wire Sample.hashed) = .ok r' ∧
      r.identity = r'.identity := by
  have h : Sample.users.validateOpts Sample.env (Sample.arrived Sample.named) (Sample.wire Sample.named) =
      .ok ⟨none, "r", [1], "alice", none⟩ := by rfl
  have h' : Sample.users.validateOpts Sample.env (Sample.arrived Sample.hashed) (Sample.wire Sample.hashed) =
      .ok ⟨none, "r", [1], "alice", none⟩ := by rfl
  have hUser : Sample.users.credential (Sample.arrived Sample.named) = some (.user "r" "alice") := by decide +kernel
  refine ⟨_, _, h, h', (one_subject_iff _ _ _ _ _ _ _ _ _ h h' (by decide +kernel)).mpr fun token hToken => ?_⟩
  rw [hUser] at hToken
  cases hToken

end Turna.Auth
