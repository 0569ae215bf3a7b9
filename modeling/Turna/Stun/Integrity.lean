import Turna.Stun.Message

/-! # What an integrity attribute vouches for

The decoder walks the attributes up to the announced length, the verifier walks the whole packet. Where the
decoder gets through, both stop at the same attributes, so that a packet that verifies carries nothing behind
its integrity attribute but FINGERPRINT.
-/

namespace Turna.Stun
open Lib Net Crypto StunMessage Bytes List

/-! ## Attribute types -/

def Typed (attrType : UInt16) (parsed : Except StunError Attribute) : Prop :=
  ∀ attr, parsed = .ok attr → attr.attrType = attrType

namespace Typed

variable {attrType : UInt16} {attr : Attribute}

theorem ok (h : attr.attrType = attrType) : Typed attrType (.ok attr) := by
  rintro _ ⟨⟩
  exact h

theorem error (e : StunError) : Typed attrType (.error e) := by
  rintro _ ⟨⟩

theorem ite {t : UInt16} {x y : Except StunError Attribute} (hPos : attrType = t → Typed attrType x) (hNeg : Typed attrType y) :
    Typed attrType (if attrType = t then x else y) := by
  split
  · next h => exact hPos h
  · exact hNeg

theorem map {α : Type} {f : α → Attribute} (h : ∀ a, (f a).attrType = attrType) (x : Except StunError α) :
    Typed attrType (f <$> x) := by
  cases x with
  | error e => exact error e
  | ok a => exact ok (h a)

theorem exactly (name expected : String) (n : Nat) (value : Bytes) (h : attr.attrType = attrType) :
    Typed attrType (exactly name expected n value attr) := by
  rw [Stun.exactly]
  split
  · exact error _
  · exact ok h

theorem bind {α : Type} {x : Except StunError α} {f : α → Except StunError Attribute} (h : ∀ a, Typed attrType (f a)) :
    Typed attrType (x >>= f) := by
  cases x with
  | error e => exact error e
  | ok a => exact h a

end Typed

theorem typed_parseValue (attrType : UInt16) (value : Bytes) (tid : TransactionId) :
    Typed attrType (parseValue attrType value tid) := by
  unfold parseValue
  repeat' refine Typed.ite ?_ ?_
  all_goals try (intro h; subst h)
  all_goals try (first | exact .exactly _ _ _ _ rfl | exact .ok rfl | (refine .map ?_ _; intro a; rfl))
  -- What is left has a branch of its own: on the length, on the text, on the address or on the first byte.
  · split <;> first | exact .ok rfl | exact .error _
  · refine .ok ?_; split <;> rfl
  · refine .ok ?_; split <;> rfl
  · split <;> exact .ok rfl
  · split <;> exact .ok rfl
  · split <;> first | exact .ok rfl | exact .error _
  · split <;> first | exact .ok rfl | exact .error _
  all_goals
    refine .bind fun _ => ?_
    split <;> first | exact .ok rfl | exact .error _
theorem parseValue_messageIntegrity (value : Bytes) (tid : TransactionId) :
    parseValue attrMessageIntegrity value tid =
      exactly "MESSAGE-INTEGRITY" "20 bytes" 20 value (.messageIntegrity (value.arrayAt 0 20)) := rfl

/-! ## Attributes in place -/

/-- The attributes that follow each other in `raw` from `pos` to `stop`. -/
inductive Layout (raw : Bytes) (tid : TransactionId) : Nat → List Attribute → Nat → Prop where
  | nil {pos : Nat} : Layout raw tid pos [] pos
  | cons {pos len stop : Nat} {attr : Attribute} {attrs : List Attribute} (hLen : (raw.uint16At (pos + 2)).toNat = len)
      (hFits : pos + 4 + Bytes.padded len ≤ raw.length)
      (hParse : parseValue (raw.uint16At pos) (raw.slice (pos + 4) len) tid = .ok attr)
      (hRest : Layout raw tid (pos + 4 + Bytes.padded len) attrs stop) : Layout raw tid pos (attr :: attrs) stop

section Walks

variable {raw : Bytes} {tid : TransactionId} {pos stop : Nat} {attrs : List Attribute}

theorem layout_of_parse {off n slots start : Nat} {out : List Attribute} (hRoom : off + n ≤ raw.length)
    (h : parseAttributesFrom (raw.slice off n) tid slots attrs start = .ok out) :
    ∃ rest stop, out = attrs ++ rest ∧ Layout raw tid (off + start) rest stop := by
  have hLength : (raw.slice off n).length = n := length_slice hRoom
  induction slots generalizing attrs start with
  | zero =>
    rw [parseAttributesFrom] at h
    split at h
    · dsimp only at h
      split_ifs at h
    · cases h
      exact ⟨[], off + start, (append_nil _).symm, .nil⟩
  | succ slots ih =>
    rw [parseAttributesFrom, hLength] at h
    split at h
    · next hMore =>
      dsimp only at h
      by_cases hLong : maxAttributeValueLen < ((raw.slice off n).uint16At (start + 2)).toNat
      · rw [if_pos hLong] at h
        cases h
      by_cases hShort : n < start + 4 + ((raw.slice off n).uint16At (start + 2)).toNat
      · rw [if_neg hLong, if_pos hShort] at h
        cases h
      rw [if_neg hLong, if_neg hShort] at h
      split at h
      · cases h
      next attr hParse =>
      split at h
      · cases h
      next hPadded =>
      rw [uint16At_slice raw off (by omega)] at hParse hPadded h hShort
      rw [uint16At_slice raw off (by omega)] at hParse
      rw [slice_slice raw off (by omega)] at hParse
      obtain ⟨rest, stop, rfl, hRest⟩ := ih h
      refine ⟨attr :: rest, stop, by rw [append_assoc]; rfl, .cons rfl ?_ ?_ ?_⟩
      · rw [Nat.add_assoc off start 2]
        omega
      · rw [Nat.add_assoc off start 4, Nat.add_assoc off start 2]
        exact hParse
      · rw [Nat.add_assoc off start 2, show off + start + 4 = off + (start + 4) by omega, Nat.add_assoc off]
        exact hRest
    · cases h
      exact ⟨[], off + start, (append_nil _).symm, .nil⟩

section

variable (h : Layout raw tid pos attrs stop)
include h

theorem Layout.le : pos + 4 * attrs.length ≤ stop := by
  induction h with
  | nil => exact Nat.le_refl _
  | cons _ _ _ _ ih =>
    rw [length_cons]
    omega

theorem Layout.le_length (hPos : pos ≤ raw.length) : stop ≤ raw.length := by
  induction h with
  | nil => exact hPos
  | cons _ hFits _ _ ih => exact ih hFits

theorem Layout.find {attrType : UInt16} (hThere : ∃ a ∈ attrs, a.attrType = attrType)
    {fuel : Nat} (hFuel : attrs.length ≤ fuel) :
    ∃ before mac after at' len, attrs = before ++ mac :: after ∧ Layout raw tid pos before at' ∧
      Layout raw tid (at' + 4 + padded len) after stop ∧ (raw.uint16At (at' + 2)).toNat = len ∧
        parseValue attrType (raw.slice (at' + 4) len) tid = .ok mac ∧ (∀ b ∈ before, b.attrType ≠ attrType) ∧
          findAttribute raw attrType fuel pos = some (at', len) := by
  induction h generalizing fuel with
  | nil =>
    obtain ⟨a, hIn, -⟩ := hThere
    cases hIn
  | @cons pos len stop attr attrs hLen hFits hParse hRest ih =>
    obtain ⟨fuel, rfl⟩ : ∃ k, fuel = k + 1 := ⟨fuel - 1, by rw [length_cons] at hFuel; omega⟩
    have hType := typed_parseValue _ _ _ _ hParse
    have hMore : pos + 4 ≤ raw.length := by omega
    rw [findAttribute, if_pos hMore, hLen]
    by_cases hHere : raw.uint16At pos = attrType
    · rw [if_pos hHere]
      refine ⟨[], attr, attrs, pos, len, rfl, .nil, hRest, hLen, hHere ▸ hParse, by simp, rfl⟩
    rw [if_neg hHere]
    have hLater : ∃ a ∈ attrs, a.attrType = attrType := by
      obtain ⟨a, hIn, hEq⟩ := hThere
      obtain rfl | hIn := mem_cons.mp hIn
      · exact absurd (hType.symm.trans hEq) hHere
      · exact ⟨a, hIn, hEq⟩
    obtain ⟨before, mac, after, at', len', rfl, hBefore, hAfter, hLen', hMac, hOther, hFind⟩ :=
      ih hLater (show attrs.length ≤ fuel by rw [length_cons] at hFuel; omega)
    refine ⟨attr :: before, mac, after, at', len', rfl, .cons hLen hFits hParse hBefore, hAfter, hLen', hMac, ?_, hFind⟩
    intro b hIn
    obtain rfl | hIn := mem_cons.mp hIn
    · rw [hType]
      exact hHere
    · exact hOther b hIn

theorem Layout.onlyFingerprint {fuel : Nat} (hFuel : attrs.length ≤ fuel)
    (hOnly : onlyFingerprintAfter raw fuel pos = true) : ∀ a ∈ attrs, a.attrType = attrFingerprint := by
  induction h generalizing fuel with
  | nil => intro a hIn; cases hIn
  | @cons pos len stop attr attrs hLen hFits hParse hRest ih =>
    obtain ⟨fuel, rfl⟩ : ∃ k, fuel = k + 1 := ⟨fuel - 1, by rw [length_cons] at hFuel; omega⟩
    rw [onlyFingerprintAfter, if_pos (show pos + 4 ≤ raw.length by omega), hLen] at hOnly
    split at hOnly
    · cases hOnly
    next hType =>
    rw [not_not] at hType
    rintro a (_ | ⟨_, hIn⟩)
    · rw [typed_parseValue _ _ _ _ hParse, hType]
    · exact ih (by rw [length_cons] at hFuel; omega) hOnly a hIn

theorem Layout.eq_of_slice {raw' : Bytes} {attrs' : List Attribute} {lo n : Nat}
    (h' : Layout raw' tid pos attrs' stop) (hSame : raw.slice lo n = raw'.slice lo n) (hLo : lo ≤ pos)
    (hHi : stop ≤ lo + n) : attrs = attrs' := by
  have hWord {i : Nat} (hFrom : lo ≤ i) (hTo : i + 2 ≤ lo + n) : raw.uint16At i = raw'.uint16At i := by
    have hEq : (raw.slice lo n).uint16At (i - lo) = (raw'.slice lo n).uint16At (i - lo) := by rw [hSame]
    rw [uint16At_slice _ _ (by omega), uint16At_slice _ _ (by omega), show lo + (i - lo) = i by omega] at hEq
    exact hEq
  induction h generalizing attrs' with
  | nil =>
    cases h' with
    | nil => rfl
    | cons _ _ _ hRest =>
      have := hRest.le
      omega
  | @cons pos len stop attr attrs hLen hFits hParse hRest ih =>
    have hEnd := hRest.le
    have hBound := le_padded len
    cases h' with
    | nil => omega
    | @cons _ len' _ attr' attrs' hLen' hFits' hParse' hRest' =>
      obtain rfl : len = len' := by
        rw [← hLen, ← hLen', hWord (by omega) (by omega)]
      have hValue : raw.slice (pos + 4) len = raw'.slice (pos + 4) len := by
        have hEq : (raw.slice lo n).slice (pos + 4 - lo) len = (raw'.slice lo n).slice (pos + 4 - lo) len := by rw [hSame]
        rw [slice_slice _ _ (by omega), slice_slice _ _ (by omega),
          show lo + (pos + 4 - lo) = pos + 4 by omega] at hEq
        exact hEq
      rw [hValue, hWord (by omega) (by omega)] at hParse
      cases hParse.symm.trans hParse'
      rw [ih hRest' (by omega) hHi]

end

end Walks

/-! ## The signed part -/

theorem decode_ok {raw : Bytes} {msg : StunMessage} (h : decode raw = .ok msg) :
    headerSize ≤ raw.length ∧ msg.cls = .fromRaw (raw.uint16At 0) ∧
      Method.fromRaw (extractMethod (raw.uint16At 0)) = some msg.method ∧ msg.transactionId = raw.arrayAt 8 12 ∧
        ∃ stop, Layout raw msg.transactionId headerSize msg.attributes stop := by
  rw [decode] at h
  cases hHeader : MessageHeader.decode raw with
  | error e =>
    rw [hHeader] at h
    cases h
  | ok header =>
    rw [hHeader] at h
    dsimp only [bind, Except.bind] at h
    split at h
    · cases h
    next hRoom =>
    split at h
    · cases h
    next attributes hParse =>
    cases h
    rw [parseAttributes] at hParse
    split at hParse
    · cases hParse
    obtain ⟨rest, stop, rfl, hLayout⟩ := layout_of_parse (Nat.not_lt.mp hRoom) hParse
    rw [MessageHeader.decode] at hHeader
    split at hHeader
    · cases hHeader
    next hSize =>
    dsimp only at hHeader
    split_ifs at hHeader
    split at hHeader
    · cases hHeader
    next method hMethod =>
    cases hHeader
    exact ⟨Nat.not_lt.mp hSize, rfl, hMethod, rfl, stop, hLayout⟩

inductive IntegrityKind where
  | sha1
  | sha256
  deriving DecidableEq, Repr

namespace IntegrityKind

def attrType : IntegrityKind → UInt16
  | .sha1 => attrMessageIntegrity
  | .sha256 => attrMessageIntegritySha256

def verify (kind : IntegrityKind) (c : Primitives) (msg : StunMessage) (raw key : Bytes) : Bool :=
  match kind with
  | .sha1 => msg.verifyIntegrity c raw key
  | .sha256 => msg.verifyIntegritySha256 c raw key

def signedPart (kind : IntegrityKind) (raw : Bytes) : Option (Nat × Bytes) :=
  (StunMessage.findAttribute raw kind.attrType raw.length headerSize).map fun found =>
    let size := match kind with
      | .sha1 => 24
      | .sha256 => 4 + found.2
    (found.1, StunMessage.withLength (raw.take found.1) (found.1 - headerSize + size))

/-- The code of `input` is the one that the message carries. -/
def Vouches (kind : IntegrityKind) (c : Primitives) (msg : StunMessage) (key input : Bytes) : Prop :=
  match kind with
  | .sha1 => msg.getMessageIntegrity = some (c.hmacSha1 key input)
  | .sha256 => ∃ tag, msg.getMessageIntegritySha256 = some tag ∧ StunMessage.verifyTag256 c key input tag = true

def strip (kind : IntegrityKind) (attrs : List Attribute) : List Attribute :=
  attrs.filter fun a => a.attrType ≠ kind.attrType ∧ a.attrType ≠ attrFingerprint

end IntegrityKind

section Vouching

variable {kind : IntegrityKind} {c : Primitives} {msg : StunMessage} {raw key : Bytes}

theorem mem_of_getMessageIntegrity {mac : List.Vector UInt8 20} (h : msg.getMessageIntegrity = some mac) :
    .messageIntegrity mac ∈ msg.attributes := by
  obtain ⟨a, hIn, hEq⟩ := exists_of_findSome?_eq_some h
  cases a with
  | messageIntegrity mac' =>
    cases hEq
    exact hIn
  | _ => cases hEq

theorem mem_of_getMessageIntegritySha256 {tag : Bytes} (h : msg.getMessageIntegritySha256 = some tag) :
    .unknown attrMessageIntegritySha256 tag ∈ msg.attributes := by
  obtain ⟨a, hIn, hEq⟩ := exists_of_findSome?_eq_some h
  cases a with
  | unknown attrType value =>
    dsimp only at hEq
    split at hEq
    · next hType =>
      cases hEq
      exact hType ▸ hIn
    · cases hEq
  | _ => cases hEq

theorem IntegrityKind.Vouches.mem {input : Bytes} (h : kind.Vouches c msg key input) :
    ∃ a ∈ msg.attributes, a.attrType = kind.attrType := by
  cases kind with
  | sha1 => exact ⟨_, mem_of_getMessageIntegrity h, rfl⟩
  | sha256 =>
    obtain ⟨tag, hTag, -⟩ := h
    exact ⟨_, mem_of_getMessageIntegritySha256 hTag, rfl⟩

def IntegrityKind.room (kind : IntegrityKind) (len : Nat) : Nat :=
  match kind with
  | .sha1 => 20
  | .sha256 => Bytes.padded len

theorem verify_spec (h : kind.verify c msg raw key = true) : ∃ pos len input,
    findAttribute raw kind.attrType raw.length headerSize = some (pos, len) ∧
      kind.signedPart raw = some (pos, input) ∧ kind.Vouches c msg key input ∧
        onlyFingerprintAfter raw raw.length (pos + 4 + kind.room len) = true := by
  cases kind with
  | sha1 =>
    rw [IntegrityKind.verify, verifyIntegrity] at h
    split at h
    · next expected pos len hExpected hFind =>
      rw [Bool.and_eq_true, beq_iff_eq] at h
      refine ⟨pos, len, withLength (raw.take pos) (pos - headerSize + 24), hFind, ?_, ?_, h.1⟩
      · rw [IntegrityKind.signedPart, IntegrityKind.attrType, hFind]
        rfl
      · rw [IntegrityKind.Vouches, hExpected, h.2]
    · cases h
  | sha256 =>
    rw [IntegrityKind.verify, verifyIntegritySha256] at h
    split at h
    · next expected pos len hExpected hFind =>
      rw [Bool.and_eq_true] at h
      refine ⟨pos, len, withLength (raw.take pos) (pos - headerSize + 4 + len), hFind, ?_,
        ⟨expected, hExpected, h.2⟩, h.1⟩
      rw [IntegrityKind.signedPart, IntegrityKind.attrType, hFind, Nat.add_assoc (pos - headerSize)]
      rfl
    · cases h

structure Signed (kind : IntegrityKind) (raw : Bytes) (msg : StunMessage) (pos : Nat) (before : List Attribute)
    (mac : Attribute) (after : List Attribute) : Prop where
  attributes : msg.attributes = before ++ mac :: after
  layout : Layout raw msg.transactionId headerSize before pos
  mac : mac.attrType = kind.attrType
  first : ∀ a ∈ before, a.attrType ≠ kind.attrType
  after : ∀ a ∈ after, a.attrType = attrFingerprint

theorem signed_of_verify (hDecode : decode raw = .ok msg) (h : kind.verify c msg raw key = true) :
    ∃ pos input before mac after, kind.signedPart raw = some (pos, input) ∧ kind.Vouches c msg key input ∧
      Signed kind raw msg pos before mac after := by
  obtain ⟨pos, len, input, hFind, hPart, hVouches, hOnly⟩ := verify_spec h
  obtain ⟨hSize, -, -, -, stop, hLayout⟩ := decode_ok hDecode
  have hEnd := hLayout.le
  have hRoom := hLayout.le_length hSize
  obtain ⟨before, mac, after, pos', len', hSplit, hBefore, hAfter, hLen, hParse, hFirst, hFind'⟩ :=
    hLayout.find hVouches.mem (show msg.attributes.length ≤ raw.length by omega)
  cases hFind.symm.trans hFind'
  refine ⟨pos, input, before, mac, after, hPart, hVouches, hSplit, hBefore, typed_parseValue _ _ _ _ hParse, hFirst, ?_⟩
  have hRest := hAfter.le
  have hPadded := le_padded len
  -- The decoder takes a MESSAGE-INTEGRITY of twenty bytes only, so that both walks go on at the same place.
  have hSame : kind.room len = padded len := by
    cases kind with
    | sha256 => rfl
    | sha1 =>
      rw [IntegrityKind.attrType, parseValue_messageIntegrity, exactly] at hParse
      split at hParse
      · cases hParse
      next hTwenty =>
      rw [not_not, length_slice (by omega)] at hTwenty
      rw [hTwenty]
      rfl
  rw [hSame] at hOnly
  exact hAfter.onlyFingerprint (by omega) hOnly

theorem Signed.strip {pos : Nat} {before after : List Attribute} {mac : Attribute}
    (h : Signed kind raw msg pos before mac after) :
    kind.strip msg.attributes = before.filter (fun a => a.attrType ≠ attrFingerprint) := by
  have hMac : kind.strip [mac] = [] := by
    simp [IntegrityKind.strip, h.mac]
  have hAfter : kind.strip after = [] := by
    rw [IntegrityKind.strip, filter_eq_nil_iff]
    intro a hIn
    simp [h.after a hIn]
  have hBefore : kind.strip before = before.filter (fun a => a.attrType ≠ attrFingerprint) := by
    refine filter_congr fun a hIn => ?_
    simp [h.first a hIn]
  rw [h.attributes, show before ++ mac :: after = before ++ ([mac] ++ after) from rfl, IntegrityKind.strip,
    filter_append, filter_append]
  rw [IntegrityKind.strip] at hMac hAfter hBefore
  rw [hMac, hAfter, hBefore, append_nil, append_nil]

theorem signedPart_spec {pos : Nat} {input : Bytes} (h : kind.signedPart raw = some (pos, input)) :
    ∃ n, input = withLength (raw.take pos) n := by
  obtain ⟨found, -, hEq⟩ := Option.map_eq_some_iff.mp h
  cases hEq
  exact ⟨_, rfl⟩

theorem drop_take (raw : Bytes) (pos : Nat) : (raw.take pos).drop 4 = raw.slice 4 (pos - 4) := by
  rw [slice, List.drop_take]

theorem same_of_withLength {raw' : Bytes} {pos pos' n n' : Nat} (hPos : headerSize ≤ pos) (hPos' : headerSize ≤ pos')
    (hLe : pos ≤ raw.length) (hLe' : pos' ≤ raw'.length)
    (h : withLength (raw.take pos) n = withLength (raw'.take pos') n') :
    pos = pos' ∧ raw.slice 0 2 = raw'.slice 0 2 ∧ raw.slice 4 (pos - 4) = raw'.slice 4 (pos - 4) := by
  rw [headerSize] at hPos hPos'
  have hTake : ((raw.take pos).take 2).length = ((raw'.take pos').take 2).length := by
    simp only [length_take]
    omega
  have hSame : pos = pos' := by
    have hLength := congrArg length h
    simp only [withLength, length_append, length_take, length_drop, length_ofUInt16] at hLength
    omega
  subst hSame
  rw [withLength, withLength] at h
  obtain ⟨hFront, hBack⟩ := append_inj h (by simp only [length_append, hTake, length_ofUInt16])
  obtain ⟨hFirst, -⟩ := append_inj hFront hTake
  refine ⟨rfl, ?_, ?_⟩
  · rw [take_take, take_take, Nat.min_eq_left (by omega)] at hFirst
    exact hFirst
  · rw [← drop_take, ← drop_take]
    exact hBack

end Vouching

/-- Every attribute but the integrity attribute and FINGERPRINT lies in the bytes over which the code was computed. -/
theorem honours_authenticated_attributes (c : Primitives) (kind kind' : IntegrityKind) (raw raw' key key' : Bytes)
    (msg msg' : StunMessage) (hDecode : decode raw = .ok msg) (hVerify : kind.verify c msg raw key = true) :
    (∃ pos input before mac after, kind.signedPart raw = some (pos, input) ∧ kind.Vouches c msg key input ∧
      (∃ n, input = withLength (raw.take pos) n) ∧ msg.attributes = before ++ mac :: after ∧
        Layout raw msg.transactionId headerSize before pos ∧ mac.attrType = kind.attrType ∧
          ∀ a ∈ after, a.attrType = attrFingerprint) ∧
    (decode raw' = .ok msg' → kind'.verify c msg' raw' key' = true →
      (kind.signedPart raw).map Prod.snd = (kind'.signedPart raw').map Prod.snd →
        msg.cls = msg'.cls ∧ msg.method = msg'.method ∧ msg.transactionId = msg'.transactionId ∧
          kind.strip msg.attributes = kind'.strip msg'.attributes) := by
  obtain ⟨pos, input, before, mac, after, hPart, hVouches, hSigned⟩ := signed_of_verify hDecode hVerify
  obtain ⟨n, hInput⟩ := signedPart_spec hPart
  constructor
  · exact ⟨pos, input, before, mac, after, hPart, hVouches, ⟨n, hInput⟩, hSigned.attributes, hSigned.layout,
      hSigned.mac, hSigned.after⟩
  intro hDecode' hVerify' hSame
  obtain ⟨pos', input', before', mac', after', hPart', -, hSigned'⟩ := signed_of_verify hDecode' hVerify'
  obtain ⟨n', hInput'⟩ := signedPart_spec hPart'
  rw [hPart, hPart'] at hSame
  have hInputs : input = input' := Option.some.inj hSame
  rw [hInput, hInput'] at hInputs
  obtain ⟨hSize, hClass, hMethod, hTid, -⟩ := decode_ok hDecode
  obtain ⟨hSize', hClass', hMethod', hTid', -⟩ := decode_ok hDecode'
  have hFrom := hSigned.layout.le
  have hFrom' := hSigned'.layout.le
  obtain ⟨rfl, hHead, hBody⟩ := same_of_withLength (by omega) (by omega) (hSigned.layout.le_length hSize)
    (hSigned'.layout.le_length hSize') hInputs
  have hType : raw.uint16At 0 = raw'.uint16At 0 := by
    have hEq : (raw.slice 0 2).uint16At 0 = (raw'.slice 0 2).uint16At 0 := by rw [hHead]
    rwa [Bytes.uint16At_slice _ _ (by omega), Bytes.uint16At_slice _ _ (by omega)] at hEq
  have hTids : msg.transactionId = msg'.transactionId := by
    have hEq : (raw.slice 4 (pos - 4)).arrayAt 4 12 = (raw'.slice 4 (pos - 4)).arrayAt 4 12 := by rw [hBody]
    rw [headerSize] at hFrom
    rwa [Bytes.arrayAt_slice _ _ (by omega), Bytes.arrayAt_slice _ _ (by omega), ← hTid, ← hTid'] at hEq
  refine ⟨by rw [hClass, hClass', hType], ?_, hTids, ?_⟩
  · rw [hType, hMethod'] at hMethod
    exact (Option.some.inj hMethod).symm
  have hLayout' := hSigned'.layout
  rw [← hTids] at hLayout'
  rw [hSigned.strip, hSigned'.strip, hSigned.layout.eq_of_slice hLayout' hBody (by decide) (by omega)]

def zeroPrimitives : Primitives where
  hmacSha1 _ _ := .replicate 20 0
  hmacSha256 _ _ := .replicate 32 0
  md5 _ := .replicate 16 0
  sha256 _ := .replicate 32 0
  crc32 _ := 0
  base64 _ := ""
  aeadDecrypt _ _ _ _ := none

def signedRefresh (length : UInt8) (trailer : Bytes) : Bytes :=
  [0, 4, 0, length, 0x21, 0x12, 0xA4, 0x42] ++ List.replicate 12 7 ++ [0, 0x0D, 0, 4, 0, 0, 2, 0x58] ++
    [0, 8, 0, 20] ++ List.replicate 20 0 ++ trailer

theorem honours_authenticated_attributes_refresh : ∃ msg msg', decode (signedRefresh 32 []) = .ok msg ∧
      decode (signedRefresh 40 [0x80, 0x28, 0, 4, 0, 0, 0, 0]) = .ok msg' ∧
        msg.attributes ≠ msg'.attributes ∧
          IntegrityKind.sha1.strip msg.attributes = IntegrityKind.sha1.strip msg'.attributes := by
  have hFirst : (decode (signedRefresh 32 [])).toOption.any
      (fun m => m.attributes.length == 2 && IntegrityKind.sha1.verify zeroPrimitives m (signedRefresh 32 []) []) = true := by
    decide +kernel
  have hSecond : (decode (signedRefresh 40 [0x80, 0x28, 0, 4, 0, 0, 0, 0])).toOption.any
      (fun m => m.attributes.length == 3 &&
        IntegrityKind.sha1.verify zeroPrimitives m (signedRefresh 40 [0x80, 0x28, 0, 4, 0, 0, 0, 0]) []) = true := by
    decide +kernel
  cases hDecode : decode (signedRefresh 32 []) with
  | error e =>
    rw [hDecode] at hFirst
    cases hFirst
  | ok msg =>
    cases hDecode' : decode (signedRefresh 40 [0x80, 0x28, 0, 4, 0, 0, 0, 0]) with
    | error e =>
      rw [hDecode'] at hSecond
      cases hSecond
    | ok msg' =>
      rw [hDecode] at hFirst
      rw [hDecode'] at hSecond
      simp only [Except.toOption, Option.any_some, Bool.and_eq_true, beq_iff_eq] at hFirst hSecond
      obtain ⟨-, hHonours⟩ := honours_authenticated_attributes zeroPrimitives .sha1 .sha1 _
        (signedRefresh 40 [0x80, 0x28, 0, 4, 0, 0, 0, 0]) [] [] msg msg' hDecode hFirst.2
      refine ⟨msg, msg', rfl, rfl, fun hEq => ?_, (hHonours hDecode' hSecond.2 (by decide +kernel)).2.2.2⟩
      rw [hEq, hSecond.1] at hFirst
      omega

end Turna.Stun
