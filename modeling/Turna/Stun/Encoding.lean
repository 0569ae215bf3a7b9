import Mathlib.Algebra.GroupWithZero.Nat
import Turna.Stun.Message

/-! # Sizes of encoded messages

A message is encoded exactly if its attributes fit the scratch buffer and the whole fits the output.
-/

namespace Turna.Stun
open Lib Net Crypto List StunMessage Attribute Bytes

def transportUdp : UInt8 := 17

def transportTcp : UInt8 := 6

def defaultLifetime : UInt32 := 600

def maxLifetime : UInt32 := 3600

def buildAllocateResponse (tid : TransactionId) (relayedAddr mappedAddr : SocketAddr) (lifetime : UInt32) :
    StunMessage :=
  (((StunMessage.withTransactionId .allocate .successResponse tid).add (.xorRelayedAddress relayedAddr)).add
    (.xorMappedAddress mappedAddr)).add (.lifetime lifetime)

def buildSuccessResponse (method : Method) (tid : TransactionId) : StunMessage :=
  .withTransactionId method .successResponse tid

def buildErrorResponse (method : Method) (tid : TransactionId) (code : UInt16) (reason : String) : StunMessage :=
  (StunMessage.withTransactionId method .errorResponse tid).add (.errorCode code reason)

def buildRedirectResponse (method : Method) (tid : TransactionId) (alternateAddr : SocketAddr) : StunMessage :=
  (buildErrorResponse method tid 300 "Try Alternate").add (.alternateServer alternateAddr)

def buildAuthChallenge (method : Method) (tid : TransactionId) (realm nonce : String) : StunMessage :=
  let msg := ((buildErrorResponse method tid 401 "Unauthorized").add (.realm realm)).add (.nonce nonce)
  msg.add (.unknown attrPasswordAlgorithms
    ([passwordAlgorithmMd5, passwordAlgorithmSha256].flatMap fun algo => Bytes.ofUInt16 algo ++ Bytes.ofUInt16 0))

def buildOauthChallenge (method : Method) (tid : TransactionId) (realm nonce : String) (asIdentity : Bytes) :
    StunMessage :=
  (buildAuthChallenge method tid realm nonce).add (.thirdPartyAuthorization asIdentity)

/-- The answer is signed with the variant of MESSAGE-INTEGRITY that the request carried. -/
def encodeWithIntegrityAuto (c : Primitives) (resp : StunMessage) (room : Nat) (key : Bytes) (req : StunMessage) :
    Except StunError Bytes :=
  if req.getMessageIntegritySha256.isSome then resp.encodeWithIntegritySha256 c room key
  else resp.encodeWithIntegrity c room key

/-! ## Sizes of encoded messages -/

/-- The encoder skips MESSAGE-INTEGRITY and FINGERPRINT; the signing step appends them. -/
def Attribute.isPlain : Attribute → Bool
  | .messageIntegrity _ => false
  | .fingerprint _ => false
  | .unknown attrType _ => attrType != attrMessageIntegrity && attrType != attrFingerprint
  | _ => true

theorem not_trailer_of_isPlain {attr : Attribute} (h : attr.isPlain = true) :
    ¬ (attr.attrType = attrMessageIntegrity ∨ attr.attrType = attrFingerprint) := by
  cases attr with
  | messageIntegrity | fingerprint => cases h
  | unknown attrType value =>
    rw [isPlain, Bool.and_eq_true, bne_iff_ne, bne_iff_ne] at h
    rintro (hType | hType)
    · exact h.1 hType
    · exact h.2 hType
  | _ => simp only [attrType]; decide

def Attribute.size (tid : TransactionId) (attr : Attribute) : Nat := 4 + Bytes.padded (attr.valueBytes tid).length

def attrsSize (tid : TransactionId) (attrs : List Attribute) : Nat := (attrs.map (Attribute.size tid)).sum

@[simp] theorem attrsSize_withTransactionId (tid tid' : TransactionId) (method : Method) (cls : MessageClass) :
    attrsSize tid (withTransactionId method cls tid').attributes = 0 := rfl

@[simp] theorem attrsSize_add (tid : TransactionId) (msg : StunMessage) (attr : Attribute) :
    attrsSize tid (msg.add attr).attributes = attrsSize tid msg.attributes + attr.size tid := by
  simp [attrsSize, add]

@[simp] theorem transactionId_add (msg : StunMessage) (attr : Attribute) :
    (msg.add attr).transactionId = msg.transactionId := rfl

@[simp] theorem transactionId_withTransactionId (method : Method) (cls : MessageClass) (tid : TransactionId) :
    (withTransactionId method cls tid).transactionId = tid := rfl

@[simp] theorem size_lifetime (tid : TransactionId) (secs : UInt32) : (lifetime secs).size tid = 8 := by
  simp [size, valueBytes, padded]

theorem padded_add {m n : Nat} (h : m % 4 = 0) : padded (m + n) = m + padded n := by
  unfold padded
  omega

theorem size_mod (tid : TransactionId) (attr : Attribute) : attr.size tid % 4 = 0 := by
  have := padded_mod (attr.valueBytes tid).length
  unfold size
  omega

def Attribute.appendTo (acc : Bytes) (tid : TransactionId) (attr : Attribute) : Bytes :=
  Bytes.pad (acc ++ Bytes.ofUInt16 attr.attrType ++ Bytes.ofUInt16 (UInt16.ofNat (attr.valueBytes tid).length) ++
    attr.valueBytes tid)

theorem ensure_bind_eq_ok {α : Type} {room need : Nat} {next : Unit → Except StunError α} {a : α} :
    (ensure room need >>= next) = .ok a ↔ need ≤ room ∧ next () = .ok a := by
  by_cases h : need ≤ room
  · rw [ensure_ok h]
    exact (and_iff_right h).symm
  · rw [ensure, if_pos (Nat.lt_of_not_le h)]
    exact ⟨nofun, fun hEq => absurd hEq.1 h⟩

theorem length_appendTo {acc : Bytes} (hAligned : acc.length % 4 = 0) (tid : TransactionId) (attr : Attribute) :
    (attr.appendTo acc tid).length = acc.length + attr.size tid := by
  simp only [appendTo, length_pad, length_append, length_ofUInt16]
  rw [show acc.length + 2 + 2 + (attr.valueBytes tid).length = acc.length + (4 + (attr.valueBytes tid).length) by omega,
    padded_add hAligned, padded_add rfl]
  rfl

namespace StunMessage

theorem encodeAttribute_eq_ok {tid : TransactionId} {attr : Attribute} {acc out : Bytes}
    (hAligned : acc.length % 4 = 0) (hPlain : attr.isPlain = true) :
    encodeAttribute tid acc attr = .ok out ↔
      acc.length + attr.size tid ≤ attrScratch ∧ out = attr.appendTo acc tid := by
  have hValue := le_padded (attr.valueBytes tid).length
  have hLength := length_appendTo hAligned tid attr
  rw [appendTo, length_pad] at hLength
  rw [encodeAttribute, if_neg (not_trailer_of_isPlain hPlain), ensure_bind_eq_ok, encodeValue, bind_assoc, ensure_bind_eq_ok]
  change _ ∧ _ ∧ (ensure attrScratch _ >>= fun _ => .ok (attr.appendTo acc tid)) = _ ↔ _
  rw [ensure_bind_eq_ok, hLength, Except.ok.injEq, eq_comm (a := out)]
  have hSize : attr.size tid = 4 + padded (attr.valueBytes tid).length := rfl
  constructor
  · rintro ⟨-, -, hFits, hOut⟩
    exact ⟨hFits, hOut⟩
  · rintro ⟨hFits, hOut⟩
    exact ⟨by omega, by omega, hFits, hOut⟩

def attrBytes (tid : TransactionId) (attrs : List Attribute) (acc : Bytes) : Bytes :=
  attrs.foldl (fun acc attr => attr.appendTo acc tid) acc

theorem length_attrBytes {tid : TransactionId} {attrs : List Attribute} {acc : Bytes} (hAligned : acc.length % 4 = 0) :
    (attrBytes tid attrs acc).length = acc.length + attrsSize tid attrs := by
  induction attrs generalizing acc with
  | nil => rfl
  | cons attr attrs ih =>
    have hLength := length_appendTo hAligned tid attr
    have hSize := size_mod tid attr
    rw [attrBytes, foldl_cons, ← attrBytes, ih (by omega), hLength, attrsSize, attrsSize, map_cons,
      sum_cons, Nat.add_assoc]

theorem foldlM_encodeAttribute {tid : TransactionId} {attrs : List Attribute} {acc out : Bytes}
    (hAligned : acc.length % 4 = 0) (hAcc : acc.length ≤ attrScratch) (hPlain : attrs.all isPlain = true) :
    attrs.foldlM (encodeAttribute tid) acc = .ok out ↔
      acc.length + attrsSize tid attrs ≤ attrScratch ∧ out = attrBytes tid attrs acc := by
  induction attrs generalizing acc with
  | nil => exact ⟨fun h => ⟨hAcc, (Except.ok.inj h).symm⟩, fun h => congrArg _ h.2.symm⟩
  | cons attr attrs ih =>
    obtain ⟨hFirst, hPlain⟩ := all_cons.symm.trans hPlain |> Bool.and_eq_true_iff.mp
    have hLength := length_appendTo hAligned tid attr
    have hSize := size_mod tid attr
    have hSum : attrsSize tid (attr :: attrs) = attr.size tid + attrsSize tid attrs := sum_cons
    have hHead := @encodeAttribute_eq_ok tid attr acc (attr.appendTo acc tid) hAligned hFirst
    rw [foldlM_cons, hSum]
    by_cases hFits : acc.length + attr.size tid ≤ attrScratch
    · rw [hHead.mpr ⟨hFits, rfl⟩]
      refine (ih (by omega) (by omega) hPlain).trans ?_
      rw [hLength, Nat.add_assoc]
      rfl
    · cases hCase : encodeAttribute tid acc attr with
      | error e => exact ⟨nofun, fun h => absurd h.1 (by omega)⟩
      | ok out => exact absurd ((encodeAttribute_eq_ok hAligned hFirst).mp hCase).1 hFits

variable {msg : StunMessage} {room : Nat} {data : Bytes}

def typeBytes (msg : StunMessage) : Bytes := Bytes.ofUInt16 (encodeMessageType msg.method msg.cls)

theorem encode_eq_ok (hPlain : msg.attributes.all isPlain = true) : msg.encode room = .ok data ↔
      attrsSize msg.transactionId msg.attributes ≤ attrScratch ∧
        headerSize + attrsSize msg.transactionId msg.attributes ≤ room ∧
          data = headerBytes msg.method msg.cls (UInt16.ofNat (attrsSize msg.transactionId msg.attributes))
            msg.transactionId ++ attrBytes msg.transactionId msg.attributes [] := by
  have hLength := @length_attrBytes msg.transactionId msg.attributes [] rfl
  have hAttrs := fun out => @foldlM_encodeAttribute msg.transactionId msg.attributes [] out rfl (Nat.zero_le _) hPlain
  simp only [length_nil, Nat.zero_add] at hLength hAttrs
  rw [encode, encodeAttributes]
  cases hCase : msg.attributes.foldlM (encodeAttribute msg.transactionId) [] with
  | error e =>
    refine ⟨nofun, fun h => ?_⟩
    have hOk := (hAttrs _).mpr ⟨h.1, rfl⟩
    rw [hCase] at hOk
    cases hOk
  | ok out =>
    obtain ⟨hFits, rfl⟩ := (hAttrs out).mp hCase
    change (ensure room (headerSize + (attrBytes msg.transactionId msg.attributes []).length) >>= fun _ => _) = _ ↔ _
    rw [ensure_bind_eq_ok, hLength]
    refine ⟨fun h => ⟨hFits, h.1, (Except.ok.inj h.2).symm⟩, fun h => ⟨h.2.1, congrArg _ h.2.2.symm⟩⟩

theorem take_encode (hPlain : msg.attributes.all isPlain = true) (h : msg.encode room = .ok data) :
    data.length = headerSize + attrsSize msg.transactionId msg.attributes ∧ data.take 2 = msg.typeBytes := by
  obtain ⟨-, -, rfl⟩ := (encode_eq_ok hPlain).mp h
  refine ⟨?_, rfl⟩
  rw [length_append, length_headerBytes, length_attrBytes rfl, length_nil, Nat.zero_add]

/-! ## Signed messages -/

theorem length_withLength {buf : Bytes} (h : headerSize ≤ buf.length) (n : Nat) :
    (withLength buf n).length = buf.length ∧ (withLength buf n).take 2 = buf.take 2 := by
  rw [headerSize] at h
  rw [withLength]
  constructor
  · simp only [length_append, length_take, length_drop, length_ofUInt16]
    omega
  · rw [append_assoc, take_append_of_le_length (by rw [length_take]; omega), take_take]
    rfl

def withMac (attrType : UInt16) (size : Nat) (mac : Bytes → Bytes) (buf : Bytes) : Bytes :=
  let buf := withLength buf (buf.length - headerSize + (4 + size))
  buf ++ Bytes.ofUInt16 attrType ++ Bytes.ofUInt16 (UInt16.ofNat size) ++ mac buf

def withFingerprint (c : Primitives) (buf : Bytes) : Bytes :=
  let buf := withLength buf (buf.length - headerSize + 8)
  buf ++ Bytes.ofUInt16 attrFingerprint ++ Bytes.ofUInt16 4 ++ Bytes.ofUInt32 (computeFingerprint c buf)

section Sign

variable {c : Primitives} {attrType : UInt16} {size : Nat} {mac : Bytes → Bytes} {buf : Bytes}

theorem length_withMac (hMac : ∀ b, (mac b).length = size) (hHeader : headerSize ≤ buf.length) :
    (withMac attrType size mac buf).length = buf.length + 4 + size ∧
      (withMac attrType size mac buf).take 2 = buf.take 2 := by
  obtain ⟨hLength, hTake⟩ := length_withLength hHeader (buf.length - headerSize + (4 + size))
  rw [headerSize] at hHeader
  rw [withMac]
  constructor
  · simp only [length_append, length_ofUInt16, hMac, hLength]
  · rw [append_assoc, append_assoc, take_append_of_le_length (by omega), hTake]

theorem length_withFingerprint (hHeader : headerSize ≤ buf.length) :
    (withFingerprint c buf).length = buf.length + 8 ∧ (withFingerprint c buf).take 2 = buf.take 2 := by
  obtain ⟨hLength, hTake⟩ := length_withLength hHeader (buf.length - headerSize + 8)
  rw [headerSize] at hHeader
  rw [withFingerprint]
  constructor
  · simp only [length_append, length_ofUInt16, length_ofUInt32, hLength]
  · rw [append_assoc, append_assoc, take_append_of_le_length (by omega), hTake]

theorem sign_eq_ok (hMac : ∀ b, (mac b).length = size) (hHeader : headerSize ≤ buf.length) :
    sign c room attrType size mac buf = .ok data ↔
      buf.length + size + 12 ≤ room ∧ data = withFingerprint c (withMac attrType size mac buf) := by
  obtain ⟨hLength, -⟩ := @length_withMac attrType size mac buf hMac hHeader
  rw [sign, ensure_bind_eq_ok]
  change _ ∧ (ensure room ((withMac attrType size mac buf).length + 8) >>= fun _ =>
    .ok (withFingerprint c (withMac attrType size mac buf))) = _ ↔ _
  rw [ensure_bind_eq_ok, hLength, Except.ok.injEq, eq_comm (a := data)]
  constructor
  · rintro ⟨-, hFits, hData⟩
    exact ⟨by omega, hData⟩
  · rintro ⟨hFits, hData⟩
    exact ⟨by omega, by omega, hData⟩

theorem take_sign (hMac : ∀ b, (mac b).length = size) (hHeader : headerSize ≤ buf.length)
    (h : sign c room attrType size mac buf = .ok data) :
    data.length = buf.length + size + 12 ∧ data.length ≤ room ∧ data.take 2 = buf.take 2 := by
  obtain ⟨hFits, rfl⟩ := (sign_eq_ok hMac hHeader).mp h
  obtain ⟨hLength, hTake⟩ := @length_withMac attrType size mac buf hMac hHeader
  obtain ⟨hLength', hTake'⟩ := @length_withFingerprint c (withMac attrType size mac buf) (by omega)
  exact ⟨by omega, by omega, hTake'.trans hTake⟩

end Sign

end StunMessage

section Auto

variable {c : Primitives} {resp req : StunMessage} {room : Nat} {key data : Bytes}

def trailerSize (req : StunMessage) : Nat := if req.getMessageIntegritySha256.isSome then 44 else 32

/-- The part that signs what `encode` wrote. -/
def signAuto (c : Primitives) (room : Nat) (key : Bytes) (req : StunMessage) (buf : Bytes) : Except StunError Bytes :=
  if req.getMessageIntegritySha256.isSome then
    StunMessage.sign c room attrMessageIntegritySha256 32 (fun b => (c.hmacSha256 key b).toList) buf
  else StunMessage.sign c room attrMessageIntegrity 20 (fun b => (c.hmacSha1 key b).toList) buf

theorem encodeWithIntegrityAuto_eq :
    encodeWithIntegrityAuto c resp room key req = resp.encode room >>= signAuto c room key req := by
  have hSign : signAuto c room key req = fun buf => if req.getMessageIntegritySha256.isSome then
      sign c room attrMessageIntegritySha256 32 (fun b => (c.hmacSha256 key b).toList) buf
    else sign c room attrMessageIntegrity 20 (fun b => (c.hmacSha1 key b).toList) buf := rfl
  rw [encodeWithIntegrityAuto, hSign]
  split_ifs
  · exact encodeWithIntegritySha256.eq_1 ..
  · exact encodeWithIntegrity.eq_1 ..

theorem signAuto_ok {buf : Bytes} (hHeader : headerSize ≤ buf.length) (hFits : buf.length + trailerSize req ≤ room) :
    ∃ data, signAuto c room key req buf = .ok data := by
  rw [trailerSize] at hFits
  rw [signAuto]
  split_ifs at hFits ⊢
  all_goals exact ⟨_, (sign_eq_ok (fun b => List.Vector.toList_length _) hHeader).mpr ⟨by omega, rfl⟩⟩

theorem take_signAuto {buf : Bytes} (hHeader : headerSize ≤ buf.length) (h : signAuto c room key req buf = .ok data) :
    buf.length ≤ data.length ∧ data.length ≤ room ∧ data.take 2 = buf.take 2 := by
  rw [signAuto] at h
  split_ifs at h
  all_goals
    obtain ⟨hLength, hRest⟩ := take_sign (fun b => List.Vector.toList_length _) hHeader h
    exact ⟨by omega, hRest⟩

theorem encodeWithIntegrityAuto_ok (hPlain : resp.attributes.all isPlain = true)
    (hScratch : attrsSize resp.transactionId resp.attributes ≤ attrScratch)
    (hFits : headerSize + attrsSize resp.transactionId resp.attributes + trailerSize req ≤ room) :
    ∃ data, encodeWithIntegrityAuto c resp room key req = .ok data := by
  have hEncode := (@StunMessage.encode_eq_ok resp room _ hPlain).mpr ⟨hScratch, by omega, rfl⟩
  obtain ⟨hLength, -⟩ := take_encode hPlain hEncode
  rw [encodeWithIntegrityAuto_eq, hEncode]
  exact signAuto_ok (by omega) (by omega)

theorem encodeWithIntegrityAuto_spec (hPlain : resp.attributes.all isPlain = true)
    (h : encodeWithIntegrityAuto c resp room key req = .ok data) :
    headerSize ≤ data.length ∧ data.length ≤ room ∧ data.take 2 = resp.typeBytes := by
  rw [encodeWithIntegrityAuto_eq] at h
  cases hEncode : resp.encode room with
  | error e =>
    rw [hEncode] at h
    cases h
  | ok buf =>
    rw [hEncode] at h
    obtain ⟨hLength, hTake⟩ := take_encode hPlain hEncode
    obtain ⟨hLength', hRoom, hTake'⟩ := take_signAuto (by omega) h
    exact ⟨by omega, hRoom, hTake'.trans hTake⟩

end Auto

end Turna.Stun
