import Turna.Lib.Base64
import Turna.Lib.Text

/-! # Stateless nonces

A nonce is `<time in hexadecimal>:<tag in base64>`; the tag is the left part of an authentication code over
time and client. The verifier compares as many bytes as the presented tag has.
-/

namespace Turna.Crypto
open Lib Option

section

structure Primitives where
  hmacSha1 : (key message : Bytes) → List.Vector UInt8 20
  hmacSha256 : (key message : Bytes) → List.Vector UInt8 32
  md5 : Bytes → List.Vector UInt8 16
  sha256 : Bytes → List.Vector UInt8 32
  crc32 : Bytes → UInt32
  base64 : Bytes → String
  aeadDecrypt : (key nonce associated ciphertext : Bytes) → Option Bytes

variable (c : Primitives)

def longTermKey (username realm password : String) : Bytes :=
  (c.md5 (Utf8.encode (username ++ ":" ++ realm ++ ":" ++ password))).toList

def longTermKeySha256 (username realm password : String) : Bytes :=
  (c.sha256 (Utf8.encode (username ++ ":" ++ realm ++ ":" ++ password))).toList

end

/-! ## Stateless nonces -/

def nonceMacLen : Nat := 16

variable (c : Primitives) (serverKey : Bytes) (client : String)

def nonceMac (tsMs : UInt64) : List.Vector UInt8 20 :=
  c.hmacSha1 serverKey (Bytes.ofUInt64 tsMs ++ Utf8.encode client)

def nonceTag (tsMs : UInt64) : Bytes := (nonceMac c serverKey client tsMs).toList.take nonceMacLen

def renderNonce (tsMs : UInt64) (tag : Bytes) : String :=
  String.ofList (Nat.toDigits 16 tsMs.toNat ++ ':' :: Base64.encode tag)

def issueClientNonce (tsMs : UInt64) : String := renderNonce tsMs (nonceTag c serverKey client tsMs)

def verifyTruncatedLeft (mac : List.Vector UInt8 20) (tag : Bytes) : Bool :=
  decide (tag.length ≠ 0 ∧ tag.length ≤ 20) && mac.toList.take tag.length == tag

def presented (nonce : String) : Option (UInt64 × Bytes) := do
  let (tsHex, tagB64) ← Text.splitOnce ':' nonce.toList
  let tsMs ← Text.parseHex64 tsHex
  let tag ← Base64.decode tagB64
  return (UInt64.ofNat tsMs, tag)

def verifyClientNonce (nonce : String) : Option UInt64 :=
  match presented nonce with
  | none => none
  | some (tsMs, tag) => if verifyTruncatedLeft (nonceMac c serverKey client tsMs) tag then some tsMs else none

/-- The nonce presents the whole tag that is issued for the client at `tsMs`, and perhaps more of the code. -/
def CarriesTag (nonce : String) (tsMs : UInt64) : Prop :=
  ∃ tag, presented nonce = some (tsMs, tag) ∧ tag.take nonceMacLen = nonceTag c serverKey client tsMs

def tagLength (nonce : String) : Nat := ((presented nonce).map (fun x => x.2.length)).getD 0

variable {c serverKey client}

theorem presented_render (tsMs : UInt64) (tag : Bytes) : presented (renderNonce tsMs tag) = some (tsMs, tag) := by
  have hColon : ':' ∉ Nat.toDigits 16 tsMs.toNat := fun hIn => by
    obtain ⟨d, hd, hEq⟩ := Text.mem_toDigits (by decide) hIn
    have hAll : ∀ i : Fin 16, ':' ≠ i.val.digitChar := by decide
    exact hAll ⟨d, hd⟩ hEq
  rw [presented, renderNonce, String.toList_ofList, Text.splitOnce_append hColon]
  simp only [bind_eq_bind, bind_some]
  rw [Text.parseHex64_toDigits tsMs.toNat_lt, bind_some, Base64.decode_encode, bind_some, UInt64.ofNat_toNat]
  rfl

theorem length_nonceTag (tsMs : UInt64) : (nonceTag c serverKey client tsMs).length = nonceMacLen := by
  rw [nonceTag, List.length_take, List.Vector.toList_length]
  rfl

theorem verify_issueClientNonce (tsMs : UInt64) :
    verifyClientNonce c serverKey client (issueClientNonce c serverKey client tsMs) = some tsMs := by
  rw [verifyClientNonce, issueClientNonce, presented_render]
  dsimp only
  rw [verifyTruncatedLeft, length_nonceTag, if_pos]
  rw [Bool.and_eq_true, beq_iff_eq]
  exact ⟨rfl, rfl⟩

theorem verify_spec {nonce : String} {tsMs : UInt64} (h : verifyClientNonce c serverKey client nonce = some tsMs) :
    ∃ tag, presented nonce = some (tsMs, tag) ∧ tag.length ≠ 0 ∧
      (nonceMac c serverKey client tsMs).toList.take tag.length = tag := by
  rw [verifyClientNonce] at h
  split at h
  · cases h
  next ts tag hPresented =>
  split at h
  · next hOk =>
    cases h
    rw [verifyTruncatedLeft, Bool.and_eq_true, beq_iff_eq, decide_eq_true_eq] at hOk
    exact ⟨tag, hPresented, hOk.1.1, hOk.2⟩
  · cases h

theorem carriesTag_iff {nonce : String} {tsMs : UInt64} (h : verifyClientNonce c serverKey client nonce = some tsMs) :
    CarriesTag c serverKey client nonce tsMs ↔ nonceMacLen ≤ tagLength nonce := by
  obtain ⟨tag, hPresented, -, hTag⟩ := verify_spec h
  rw [tagLength, hPresented, map_some, getD_some]
  dsimp only
  constructor
  · rintro ⟨tag', hPresented', hTake⟩
    cases hPresented.symm.trans hPresented'
    have hLength := congrArg List.length hTake
    rw [length_nonceTag, List.length_take] at hLength
    omega
  · intro hLong
    refine ⟨tag, hPresented, ?_⟩
    rw [← hTag, List.take_take, Nat.min_eq_left hLong]
    rfl

theorem verify_one_byte (tsMs : UInt64) :
    verifyClientNonce c serverKey client (renderNonce tsMs ((nonceMac c serverKey client tsMs).toList.take 1)) =
        some tsMs ∧
      tagLength (renderNonce tsMs ((nonceMac c serverKey client tsMs).toList.take 1)) = 1 := by
  have hLength : ((nonceMac c serverKey client tsMs).toList.take 1).length = 1 := by
    rw [List.length_take, List.Vector.toList_length]
    rfl
  constructor
  · rw [verifyClientNonce, presented_render]
    dsimp only
    rw [verifyTruncatedLeft, hLength, if_pos]
    rw [Bool.and_eq_true, beq_iff_eq]
    exact ⟨rfl, rfl⟩
  · rw [tagLength, presented_render, map_some, getD_some, hLength]

end Turna.Crypto
