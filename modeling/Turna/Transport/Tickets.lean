import Mathlib.Data.Nat.Digits.Defs
import Turna.Crypto.Nonce

/-! # Reading tickets back

What a ticket carries is read from its right end, so that colons in the id do no harm.
-/

namespace Turna.Transport
open Lib Crypto List String

def rsplitOnce (sep : Char) (l : List Char) : Option (List Char × List Char) :=
  if sep ∈ l then
    some ((l.reverse.dropWhile (· ≠ sep)).tail.reverse, (l.reverse.takeWhile (· ≠ sep)).reverse)
  else none

def hexDigit (n : Nat) : Char := Nat.digitChar n

def hexOfByte (b : UInt8) : List Char := [hexDigit (b.toNat / 16), hexDigit (b.toNat % 16)]

def hexValue (c : Char) : Option Nat :=
  if '0' ≤ c ∧ c ≤ '9' then some (c.toNat - '0'.toNat)
  else if 'a' ≤ c ∧ c ≤ 'f' then some (c.toNat - 'a'.toNat + 10)
  else if 'A' ≤ c ∧ c ≤ 'F' then some (c.toNat - 'A'.toNat + 10)
  else none

/-- Two characters as `u8::from_str_radix` reads them, with or without a plus sign. -/
def hexByte : Char → Char → Option UInt8
  | '+', lo => (hexValue lo).map UInt8.ofNat
  | hi, lo => do
    let hi ← hexValue hi
    let lo ← hexValue lo
    return UInt8.ofNat (16 * hi + lo)

def decodeHex : List Char → Option Bytes
  | [] => some []
  | hi :: lo :: rest => do
    let b ← hexByte hi lo
    let bytes ← decodeHex rest
    return b :: bytes
  | _ => none

structure MigrationManager where
  secret : Bytes
  tokenTtlSecs : Nat

namespace MigrationManager

variable (mgr : MigrationManager) (c : Primitives)

def payload (sessionId : String) (epoch nowSecs : UInt64) : List Char :=
  sessionId.toList ++ ':' :: Nat.toDigits 10 epoch.toNat ++ ':' :: Nat.toDigits 10 nowSecs.toNat

def signature (payload : List Char) : List.Vector UInt8 32 :=
  c.hmacSha256 mgr.secret (Utf8.encode (String.ofList payload))

def issueToken (nowSecs : UInt64) (sessionId : String) (epoch : UInt64) : Bytes :=
  let payload := payload sessionId epoch nowSecs
  Utf8.encode (String.ofList (payload ++ ':' :: (mgr.signature c payload).toList.flatMap hexOfByte))

/-- The allocation id and epoch of a token with a valid signature that is not too old. -/
def verifyTicket (nowSecs : UInt64) (token : Bytes) : Option (String × UInt64) := do
  let text ← Utf8.decode? token
  let (payload, signature) ← rsplitOnce ':' text.toList
  let signature ← decodeHex signature
  guard ((mgr.signature c payload).toList = signature)
  let (rest, issued) ← rsplitOnce ':' payload
  let (sessionId, epoch) ← rsplitOnce ':' rest
  let epoch ← Text.parseU64 epoch
  let issued ← Text.parseU64 issued
  guard (nowSecs.toNat - issued ≤ mgr.tokenTtlSecs)
  return (String.ofList sessionId, UInt64.ofNat epoch)

theorem length_toDigits_le (n : UInt64) : (Nat.toDigits 10 n.toNat).length ≤ 20 :=
  (Nat.length_toDigits_le_iff (by omega) (by omega)).mpr (Nat.lt_trans n.toNat_lt (by decide))

theorem length_issueToken (nowSecs : UInt64) (sessionId : String) (epoch : UInt64) :
    (mgr.issueToken c nowSecs sessionId epoch).length ≤ (Utf8.encode sessionId).length + 428 := by
  have hId : (Utf8.encode sessionId).length = utf8Len sessionId.toList := by
    rw [← Utf8.length_encode_ofList, ofList_toList]
  have hHex : ((mgr.signature c (payload sessionId epoch nowSecs)).toList.flatMap hexOfByte).length = 64 := by
    simp [List.length_flatMap, hexOfByte]
  have hRest := Utf8.utf8Len_le (':' :: Nat.toDigits 10 epoch.toNat ++ ':' :: Nat.toDigits 10 nowSecs.toNat ++
    ':' :: (mgr.signature c (payload sessionId epoch nowSecs)).toList.flatMap hexOfByte)
  have hEpoch := length_toDigits_le epoch
  have hNow := length_toDigits_le nowSecs
  simp only [List.length_append, List.length_cons, hHex] at hRest
  rw [issueToken, Utf8.length_encode_ofList, hId]
  simp only [payload, List.append_assoc, List.cons_append, utf8Len_append] at hRest ⊢
  omega

end MigrationManager

/-! ## Reading tickets back -/

theorem rsplitOnce_append {sep : Char} {rest : List Char} (h : sep ∉ rest) (l : List Char) :
    rsplitOnce sep (l ++ sep :: rest) = some (l, rest) := by
  have hAll : ∀ c ∈ rest.reverse, decide (c ≠ sep) = true :=
    fun c hIn => decide_eq_true fun hEq => h (hEq ▸ mem_reverse.mp hIn)
  have hReverse : (l ++ sep :: rest).reverse = rest.reverse ++ sep :: l.reverse := by simp
  rw [rsplitOnce, if_pos (mem_append_right _ mem_cons_self), hReverse,
    takeWhile_append_of_pos hAll, dropWhile_append_of_pos hAll]
  simp

theorem colon_not_mem_toDigits (n : Nat) : ':' ∉ Nat.toDigits 10 n := by
  intro hIn
  obtain ⟨d, hd, hEq⟩ := Text.mem_toDigits (by decide) hIn
  have hAll : ∀ i : Fin 10, ':' ≠ i.val.digitChar := by decide
  exact hAll ⟨d, hd⟩ hEq

theorem hexByte_spec (b : UInt8) :
    hexByte (hexDigit (b.toNat / 16)) (hexDigit (b.toNat % 16)) = some b ∧ ':' ∉ hexOfByte b := by
  have hAll : ∀ i : Fin 256, hexByte (hexDigit (i.val / 16)) (hexDigit (i.val % 16)) = some (UInt8.ofNat i.val) ∧
      ':' ∉ [hexDigit (i.val / 16), hexDigit (i.val % 16)] := by decide +kernel
  have hByte := hAll ⟨b.toNat, b.toNat_lt⟩
  rw [show UInt8.ofNat b.toNat = b from UInt8.ofNat_toNat] at hByte
  exact hByte

theorem decodeHex_flatMap (bytes : Bytes) : decodeHex (bytes.flatMap hexOfByte) = some bytes := by
  induction bytes with
  | nil => rfl
  | cons b bytes ih =>
    rw [flatMap_cons, hexOfByte, cons_append, cons_append, nil_append, decodeHex, (hexByte_spec b).1, ih]
    rfl

theorem colon_not_mem_hex (bytes : Bytes) : ':' ∉ bytes.flatMap hexOfByte := by
  intro hIn
  obtain ⟨b, -, hByte⟩ := mem_flatMap.mp hIn
  exact (hexByte_spec b).2 hByte

namespace MigrationManager

variable (mgr : MigrationManager) (c : Primitives)

def signedPayload (token : Bytes) : Option (List Char) := do
  let text ← Utf8.decode? token
  let (payload, signature) ← rsplitOnce ':' text.toList
  let signature ← decodeHex signature
  guard ((mgr.signature c payload).toList = signature)
  return payload

def readPayload (payload : List Char) : Option (List Char × Nat × Nat) := do
  let (rest, issued) ← rsplitOnce ':' payload
  let (sessionId, epoch) ← rsplitOnce ':' rest
  let epoch ← Text.parseU64 epoch
  let issued ← Text.parseU64 issued
  return (sessionId, epoch, issued)

theorem verifyTicket_eq (nowSecs : UInt64) (token : Bytes) :
    mgr.verifyTicket c nowSecs token = (mgr.signedPayload c token).bind fun payload =>
      (readPayload payload).bind fun claim =>
        if nowSecs.toNat - claim.2.2 ≤ mgr.tokenTtlSecs then some (ofList claim.1, UInt64.ofNat claim.2.1)
        else none := by
  rw [verifyTicket, signedPayload]
  cases Utf8.decode? token with
  | none => rfl
  | some text =>
    simp only [Option.bind_eq_bind, Option.bind_some]
    cases rsplitOnce ':' text.toList with
    | none => rfl
    | some parts =>
      simp only [Option.bind_some]
      cases decodeHex parts.2 with
      | none => rfl
      | some signature =>
        simp only [Option.bind_some]
        by_cases hTag : (mgr.signature c parts.1).toList = signature
        · simp only [hTag, guard_true, Option.pure_def, Option.bind_some]
          rw [readPayload]
          cases rsplitOnce ':' parts.1 with
          | none => rfl
          | some fields =>
            simp only [Option.bind_eq_bind, Option.bind_some]
            cases rsplitOnce ':' fields.1 with
            | none => rfl
            | some names =>
              simp only [Option.bind_some]
              cases Text.parseU64 names.2 with
              | none => rfl
              | some epoch =>
                simp only [Option.bind_some]
                cases Text.parseU64 fields.2 with
                | none => rfl
                | some issued =>
                  by_cases hAge : nowSecs.toNat - issued ≤ mgr.tokenTtlSecs
                  · simp only [hAge, guard_true, Option.pure_def, Option.bind_some, if_true]
                  · simp only [hAge, guard_false, Option.pure_def, Option.bind_some, if_false]
                    rfl
        · simp [hTag]

theorem readPayload_payload (sessionId : String) (epoch issued : UInt64) :
    readPayload (payload sessionId epoch issued) = some (sessionId.toList, epoch.toNat, issued.toNat) := by
  rw [readPayload, payload, rsplitOnce_append (colon_not_mem_toDigits _)]
  simp only [Option.bind_eq_bind, Option.bind_some]
  rw [rsplitOnce_append (colon_not_mem_toDigits _)]
  simp only [Option.bind_some]
  rw [Text.parseU64_toDigits epoch.toNat_lt, Text.parseU64_toDigits issued.toNat_lt]
  rfl

theorem signedPayload_issueToken (nowSecs : UInt64) (sessionId : String) (epoch : UInt64) :
    mgr.signedPayload c (mgr.issueToken c nowSecs sessionId epoch) = some (payload sessionId epoch nowSecs) := by
  rw [signedPayload, issueToken, Utf8.decode_encode]
  simp only [Option.bind_eq_bind, Option.bind_some, toList_ofList]
  rw [rsplitOnce_append (colon_not_mem_hex _)]
  simp only [Option.bind_some]
  rw [decodeHex_flatMap]
  simp

theorem verifyTicket_issueToken (issuedSecs nowSecs : UInt64) (sessionId : String) (epoch : UInt64) :
    mgr.verifyTicket c nowSecs (mgr.issueToken c issuedSecs sessionId epoch) =
      if nowSecs.toNat - issuedSecs.toNat ≤ mgr.tokenTtlSecs then some (sessionId, epoch) else none := by
  rw [verifyTicket_eq, signedPayload_issueToken, Option.bind_some, readPayload_payload, Option.bind_some]
  rw [ofList_toList, UInt64.ofNat_toNat]

theorem verifyTicket_issued_iff {issuedSecs nowSecs : UInt64} {sessionId id : String} {epoch epoch' : UInt64} :
    mgr.verifyTicket c nowSecs (mgr.issueToken c issuedSecs sessionId epoch) = some (id, epoch') ↔
      nowSecs.toNat - issuedSecs.toNat ≤ mgr.tokenTtlSecs ∧ sessionId = id ∧ epoch = epoch' := by
  rw [verifyTicket_issueToken, Option.ite_none_right_eq_some, Option.some_inj, Prod.mk.injEq]

theorem verifyTicket_spec {nowSecs : UInt64} {token : Bytes} {sessionId : String} {epoch : UInt64}
    (h : mgr.verifyTicket c nowSecs token = some (sessionId, epoch)) : ∃ signed, mgr.signedPayload c token = some signed ∧
      ∀ id epoch' issued, signed = payload id epoch' issued → id = sessionId ∧ epoch' = epoch := by
  rw [verifyTicket_eq] at h
  obtain ⟨signed, hSigned, hRead⟩ := Option.bind_eq_some_iff.mp h
  refine ⟨signed, hSigned, ?_⟩
  rintro id epoch' issued rfl
  rw [readPayload_payload, Option.bind_some] at hRead
  split at hRead
  · rw [ofList_toList, UInt64.ofNat_toNat] at hRead
    cases hRead
    exact ⟨rfl, rfl⟩
  · cases hRead

end MigrationManager

end Turna.Transport
