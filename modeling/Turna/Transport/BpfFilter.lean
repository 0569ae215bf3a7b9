import Turna.Stun.Message

/-! # The socket filter

The classic BPF program that the kernel runs over a datagram with its UDP header in front, and the classifier of
`proto-stun` that it stands before.
-/

namespace Turna.Transport
open Lib Bytes Stun List UInt32

structure BpfInsn where
  code : UInt16
  jt : UInt8
  jf : UInt8
  k : UInt32

def bpfLd : UInt16 := 0x00
def bpfW : UInt16 := 0x00
def bpfH : UInt16 := 0x08
def bpfAbs : UInt16 := 0x20
def bpfLen : UInt16 := 0x80
def bpfJmp : UInt16 := 0x05
def bpfJeq : UInt16 := 0x10
def bpfJge : UInt16 := 0x30
def bpfJgt : UInt16 := 0x20
def bpfRet : UInt16 := 0x06
def bpfK : UInt16 := 0x00

def filterAccept : UInt32 := 65535
def filterDrop : UInt32 := 0

def udpHdr : UInt32 := 8

def buildStunFilter (maxSize : UInt32) : List BpfInsn :=
  [⟨bpfLd ||| bpfW ||| bpfLen, 0, 0, 0⟩,
    ⟨bpfJmp ||| bpfJge ||| bpfK, 0, 9, udpHdr + 4⟩,
    ⟨bpfJmp ||| bpfJgt ||| bpfK, 8, 0, maxSize + udpHdr⟩,
    ⟨bpfLd ||| bpfH ||| bpfAbs, 0, 0, udpHdr⟩,
    ⟨bpfJmp ||| bpfJge ||| bpfK, 0, 1, 0x4000⟩,
    ⟨bpfJmp ||| bpfJgt ||| bpfK, 0, 4, 0x7FFE⟩,
    ⟨bpfLd ||| bpfW ||| bpfLen, 0, 0, 0⟩,
    ⟨bpfJmp ||| bpfJge ||| bpfK, 0, 3, udpHdr + 20⟩,
    ⟨bpfLd ||| bpfW ||| bpfAbs, 0, 0, udpHdr + 4⟩,
    ⟨bpfJmp ||| bpfJeq ||| bpfK, 0, 1, 0x2112A442⟩,
    ⟨bpfRet ||| bpfK, 0, 0, filterAccept⟩,
    ⟨bpfRet ||| bpfK, 0, 0, filterDrop⟩]

/-- Why a run stops without a verdict. `simulate` answers a load outside the packet with a drop, as the kernel does. -/
inductive BpfFault where
  | load
  | jump
  | unsupported
  | endless

def loadWord (bytes : Bytes) : UInt32 := bytes.foldl (fun acc b => acc <<< 8 ||| b.toUInt32) 0

inductive BpfOp where
  | loadLen
  | loadAbs (sz : Nat)
  | skip
  | jump (compare : UInt32 → UInt32 → Bool)
  | ret

def BpfInsn.op (code : UInt16) : Option BpfOp :=
  if code &&& 0x07 = bpfLd then
    if code &&& bpfLen ≠ 0 then some .loadLen
    else if code &&& bpfAbs ≠ 0 then some (.loadAbs (if code &&& bpfH ≠ 0 then 2 else 4))
    else some .skip
  else if code &&& 0x07 = bpfJmp then
    if code &&& 0xf0 = bpfJge then some (.jump fun a k => k ≤ a)
    else if code &&& 0xf0 = bpfJgt then some (.jump fun a k => k < a)
    else if code &&& 0xf0 = bpfJeq then some (.jump fun a k => a == k)
    else none
  else if code &&& 0x07 = bpfRet then some .ret
  else none

section

variable (prog : List BpfInsn) (pkt : Bytes)

def runFrom : Nat → UInt32 → Nat → Except BpfFault UInt32
  | 0, _, _ => .error .endless
  | turns + 1, a, pc =>
    match prog[pc]? with
    | none => .error .jump
    | some i =>
      match BpfInsn.op i.code with
      | none => .error .unsupported
      | some .loadLen => runFrom turns (UInt32.ofNat pkt.length) (pc + 1)
      | some (.loadAbs sz) =>
        if pkt.length < i.k.toNat + sz then .error .load
        else runFrom turns (loadWord (pkt.slice i.k.toNat sz)) (pc + 1)
      | some .skip => runFrom turns a (pc + 1)
      | some (.jump compare) => runFrom turns a (pc + 1 + if compare a i.k then i.jt.toNat else i.jf.toNat)
      | some .ret => .ok i.k

def simulate : Except BpfFault UInt32 := runFrom prog pkt 10000 0 0

end

/-- What the filter sees of a datagram. -/
structure Datagram where
  udpHeader : List.Vector UInt8 8
  message : Bytes
  fits : message.length + 8 < 2 ^ 32

def Datagram.packet (d : Datagram) : Bytes := d.udpHeader.toList ++ d.message

def ChannelShaped (m : Bytes) : Prop := channelMin ≤ m.uint16At 0 ∧ m.uint16At 0 ≤ channelMax

def CookieShaped (m : Bytes) : Prop := headerSize ≤ m.length ∧ m.uint32At 4 = magicCookie

instance (m : Bytes) : Decidable (ChannelShaped m) := inferInstanceAs (Decidable (_ ∧ _))

instance (m : Bytes) : Decidable (CookieShaped m) := inferInstanceAs (Decidable (_ ∧ _))

theorem loadWord_slice_two {m : Bytes} (h : 2 ≤ m.length) : (loadWord (m.slice 0 2)).toNat = (m.uint16At 0).toNat := by
  match m, h with
  | b₀ :: b₁ :: rest, _ =>
    have h₀ := b₀.toNat_lt
    show (loadWord [b₀, b₁]).toNat = (b₀.toUInt16 <<< 8 ||| b₁.toUInt16).toNat
    simp [loadWord, Nat.shiftLeft_eq]
    rw [Nat.mod_eq_of_lt (by omega), Nat.mod_eq_of_lt (by omega)]

theorem loadWord_slice_four {m : Bytes} (h : 8 ≤ m.length) : loadWord (m.slice 4 4) = m.uint32At 4 := by
  have hShift (x : UInt32) : x <<< 8 <<< 8 = x <<< 16 := (shiftLeft_add_of_toNat_lt (by decide)).symm
  have hShift' (x : UInt32) : x <<< 16 <<< 8 = x <<< 24 := (shiftLeft_add_of_toNat_lt (by decide)).symm
  match m, h with
  | _ :: _ :: _ :: _ :: b₀ :: b₁ :: b₂ :: b₃ :: rest, _ =>
    show loadWord [b₀, b₁, b₂, b₃] = _
    simp [loadWord, shiftLeft_or, hShift, hShift', uint32At, byteAt]

/-! ## The program -/

theorem op_jge : BpfInsn.op (bpfJmp ||| bpfJge ||| bpfK) = some (.jump fun a k => k ≤ a) := rfl

theorem op_jgt : BpfInsn.op (bpfJmp ||| bpfJgt ||| bpfK) = some (.jump fun a k => k < a) := rfl

theorem op_jeq : BpfInsn.op (bpfJmp ||| bpfJeq ||| bpfK) = some (.jump fun a k => a == k) := rfl

theorem runFrom_jump {prog : List BpfInsn} {pkt : Bytes} {turns pc : Nat} {i : BpfInsn}
    {compare : UInt32 → UInt32 → Bool} {a : UInt32} (h : prog[pc]? = some i)
    (hOp : BpfInsn.op i.code = some (.jump compare)) : runFrom prog pkt (turns + 1) a pc =
      if compare a i.k then runFrom prog pkt turns a (pc + 1 + i.jt.toNat)
      else runFrom prog pkt turns a (pc + 1 + i.jf.toNat) := by
  simp only [runFrom, h, hOp]
  split <;> rfl

section

variable (maxSize a : UInt32) (pkt : Bytes) (turns : Nat)

/-- The rest of the program from the test for a cookie. -/
def cookieVerdict : Except BpfFault UInt32 :=
  if udpHdr + 20 ≤ UInt32.ofNat pkt.length then
    if pkt.length < 16 then .error .load
    else if loadWord (pkt.slice 12 4) = 0x2112A442 then .ok filterAccept else .ok filterDrop
  else .ok filterDrop

def verdict : Except BpfFault UInt32 :=
  if udpHdr + 4 ≤ UInt32.ofNat pkt.length then
    if maxSize + udpHdr < UInt32.ofNat pkt.length then .ok filterDrop
    else if pkt.length < 10 then .error .load
    else if 0x4000 ≤ loadWord (pkt.slice 8 2) then
      if 0x7FFE < loadWord (pkt.slice 8 2) then cookieVerdict pkt else .ok filterAccept
    else cookieVerdict pkt
  else .ok filterDrop

theorem run_cookie : runFrom (buildStunFilter maxSize) pkt (turns + 5) a 6 = cookieVerdict pkt := by
  show runFrom (buildStunFilter maxSize) pkt (turns + 4) (.ofNat pkt.length) 7 = _
  rw [runFrom_jump rfl op_jge]
  refine if_congr decide_eq_true_iff (if_congr Iff.rfl rfl ?_) rfl
  rw [runFrom_jump rfl op_jeq]
  exact if_congr decide_eq_true_iff rfl rfl

theorem run_verdict : runFrom (buildStunFilter maxSize) pkt (turns + 11) a 0 = verdict maxSize pkt := by
  show runFrom (buildStunFilter maxSize) pkt (turns + 10) (.ofNat pkt.length) 1 = _
  rw [runFrom_jump rfl op_jge]
  refine if_congr decide_eq_true_iff ?_ rfl
  rw [runFrom_jump rfl op_jgt]
  refine if_congr decide_eq_true_iff rfl (if_congr Iff.rfl rfl ?_)
  rw [runFrom_jump rfl op_jge]
  refine if_congr decide_eq_true_iff ?_ (run_cookie ..)
  rw [runFrom_jump rfl op_jgt]
  exact if_congr decide_eq_true_iff (run_cookie ..) rfl

end

section

variable (d : Datagram) {maxSize : UInt32}

theorem Datagram.length_packet : d.packet.length = d.message.length + 8 := by
  simp [packet]
  omega

theorem Datagram.slice_packet (i n : Nat) : d.packet.slice (8 + i) n = d.message.slice i n := by
  have hDrop : d.packet.drop 8 = d.message := drop_left' d.udpHeader.toList_length
  rw [slice, slice, ← drop_drop, hDrop]

theorem Datagram.toNat_length : (UInt32.ofNat d.packet.length).toNat = d.message.length + 8 := by
  rw [d.length_packet, toNat_ofNat', Nat.mod_eq_of_lt d.fits]

theorem Datagram.le_length (k : UInt32) : k ≤ .ofNat d.packet.length ↔ k.toNat ≤ d.message.length + 8 := by
  rw [le_iff_toNat_le, d.toNat_length]

theorem cookieVerdict_packet :
    cookieVerdict d.packet = .ok (if CookieShaped d.message then filterAccept else filterDrop) := by
  have hLong : udpHdr + 20 ≤ .ofNat d.packet.length ↔ 20 ≤ d.message.length := by
    rw [d.le_length]
    exact Nat.add_le_add_iff_right (n := 8)
  unfold cookieVerdict
  by_cases h : 20 ≤ d.message.length
  · have hWord : loadWord (d.packet.slice 12 4) = d.message.uint32At 4 := by
      rw [d.slice_packet 4 4, loadWord_slice_four (by omega)]
    rw [if_pos (hLong.mpr h), if_neg (by rw [d.length_packet]; omega), hWord, ← apply_ite]
    exact congrArg Except.ok (if_congr (and_iff_right h).symm rfl rfl)
  · rw [if_neg (hLong.not.mpr h), if_neg fun hShaped => h hShaped.1]

theorem simulate_buildStunFilter (hMax : maxSize.toNat < 2 ^ 32 - 8) :
    simulate (buildStunFilter maxSize) d.packet =
      .ok (if 4 ≤ d.message.length ∧ d.message.length ≤ maxSize.toNat ∧
        (ChannelShaped d.message ∨ CookieShaped d.message) then filterAccept else filterDrop) := by
  have hLimit : (maxSize + udpHdr).toNat = maxSize.toNat + 8 := by
    rw [UInt32.toNat_add]
    exact Nat.mod_eq_of_lt (Nat.add_lt_of_lt_sub hMax)
  have hLong : udpHdr + 4 ≤ .ofNat d.packet.length ↔ 4 ≤ d.message.length := by
    rw [d.le_length]
    exact Nat.add_le_add_iff_right (n := 8)
  have hLarge : maxSize + udpHdr < .ofNat d.packet.length ↔ ¬ d.message.length ≤ maxSize.toNat := by
    rw [lt_iff_toNat_lt, hLimit, d.toNat_length]
    omega
  refine (run_verdict maxSize 0 d.packet 9989).trans ?_
  simp only [verdict, hLong, hLarge, cookieVerdict_packet]
  by_cases hFour : 4 ≤ d.message.length
  · have hWord : (loadWord (d.packet.slice 8 2)).toNat = (d.message.uint16At 0).toNat := by
      rw [d.slice_packet 0 2, loadWord_slice_two (by omega)]
    have hLow : 0x4000 ≤ loadWord (d.packet.slice 8 2) ↔ channelMin ≤ d.message.uint16At 0 := by
      rw [le_iff_toNat_le, hWord, UInt16.le_iff_toNat_le]
      rfl
    have hHigh : 0x7FFE < loadWord (d.packet.slice 8 2) ↔ ¬ d.message.uint16At 0 ≤ channelMax := by
      rw [lt_iff_toNat_lt, hWord, UInt16.not_le, UInt16.lt_iff_toNat_lt]
      rfl
    have hIn : ¬ d.packet.length < 10 := by
      rw [d.length_packet]
      omega
    by_cases hFits : d.message.length ≤ maxSize.toNat <;> by_cases hMin : channelMin ≤ d.message.uint16At 0 <;>
      by_cases hMax : d.message.uint16At 0 ≤ channelMax <;>
      simp [hFour, hIn, hLow, hHigh, hFits, hMin, hMax, ChannelShaped]
  · rw [if_neg hFour, if_neg fun h => hFour h.1]

end

/-- Every run of the filter ends at a verdict, lets through whatever the classifier knows and no more than its shape. -/
theorem filter_refines_classifier (maxSize : UInt32) (hMax : maxSize.toNat < 2 ^ 32 - 8) (d : Datagram) :
    ∃ verdict, simulate (buildStunFilter maxSize) d.packet = .ok verdict ∧
      (verdict = filterAccept ∨ verdict = filterDrop) ∧
      (d.message.length ≤ maxSize.toNat → (isStunMessage d.message ∨ isChannelData d.message) →
        verdict = filterAccept) ∧
      (verdict = filterAccept → 4 ≤ d.message.length ∧ d.message.length ≤ maxSize.toNat ∧
        (ChannelShaped d.message ∨ CookieShaped d.message)) := by
  refine ⟨_, simulate_buildStunFilter d hMax, ?_, fun hFits hKnown => if_pos ?_, fun hVerdict => ?_⟩
  · split <;> simp
  · simp only [isStunMessage, isChannelData, isValidChannel, Bool.and_eq_true, decide_eq_true_eq,
      beq_iff_eq] at hKnown
    rcases hKnown with ⟨⟨hLong, -⟩, hCookie⟩ | ⟨⟨hFour, hChannel⟩, -⟩
    · have hHeader : 20 ≤ d.message.length := hLong
      exact ⟨by omega, hFits, .inr ⟨hLong, hCookie⟩⟩
    · exact ⟨hFour, hFits, .inl hChannel⟩
  · by_contra hNot
    rw [if_neg hNot] at hVerdict
    exact absurd hVerdict (by decide)

theorem filter_refines_classifier_empty :
    ∃ verdict, simulate (buildStunFilter 1500) (Datagram.packet ⟨.replicate 8 0, [], by decide⟩) = .ok verdict ∧
      verdict ≠ filterAccept := by
  obtain ⟨verdict, hRun, -, -, hOnly⟩ := filter_refines_classifier 1500 (by decide) ⟨.replicate 8 0, [], by decide⟩
  refine ⟨verdict, hRun, fun hVerdict => ?_⟩
  exact absurd (hOnly hVerdict).1 (by decide)

end Turna.Transport
