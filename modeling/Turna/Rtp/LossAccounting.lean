import Mathlib
import Turna.Lib.Trace

/-! # Loss accounting of an RTP stream

A stream keeps the highest sequence number, a bitmap of the last 128 and running counters. The counters are compared
with the set of numbers received, unwrapped relative to the highest one.
-/

namespace Turna.Rtp
open Lib Finset

def maxMisorder : UInt16 := 100

def maxDropout : UInt16 := 3000

structure StreamState where
  lastSeq : UInt16
  seen : BitVec 128
  badSeq : Option UInt16
  packetsReceived : Nat
  packetsExpected : Nat
  packetsLost : Nat
  packetsOutOfOrder : Nat
  sampledReceived : Nat
  sampledExpected : Nat
  sampledLost : Nat
  sampledOutOfOrder : Nat
  firstPacket : Bool

structure SampleReport where
  received : Nat
  expected : Nat
  lost : Nat
  outOfOrder : Nat

def checkedSub (a b : Nat) : Option Nat := if b ≤ a then some (a - b) else none

namespace StreamState

def new : StreamState := ⟨0, 0, none, 0, 0, 0, 0, 0, 0, 0, 0, true⟩

variable (s : StreamState)

def initSeq (seq : UInt16) : StreamState := { s with lastSeq := seq, seen := 1, badSeq := none }

def counted : StreamState := { s with packetsReceived := s.packetsReceived + 1 }

def ahead (seq : UInt16) (udelta lost : Nat) : StreamState :=
  { s with
    packetsLost := s.packetsLost + lost
    packetsExpected := s.packetsExpected + udelta
    seen := (if 128 ≤ udelta then 0 else s.seen <<< udelta) ||| 1
    lastSeq := seq
    badSeq := none }

def behind (seen : BitVec 128) : StreamState :=
  { s with
    seen
    packetsOutOfOrder := s.packetsOutOfOrder + 1
    packetsLost := s.packetsLost - 1 }

/-- The sequence part of `update`; `none` where a subtraction underflows. -/
def update (seq : UInt16) : Option StreamState :=
  if s.firstPacket then some { s.counted.initSeq seq with firstPacket := false, packetsExpected := 1 }
  else
    let udelta := seq - s.lastSeq
    if udelta = 0 then some s.counted
    else if udelta < maxDropout then (checkedSub udelta.toNat 1).map (s.counted.ahead seq udelta.toNat)
    else if udelta ≤ 65535 - maxMisorder then
      -- A restart is believed only when the next packet follows.
      if s.badSeq = some seq then some { s.counted.initSeq seq with packetsExpected := s.packetsExpected + 2 }
      else some { s.counted with badSeq := some (seq + 1) }
    else
      let back := (s.lastSeq - seq).toNat
      let bit := 1#128 <<< min back 127
      if back < 128 ∧ s.seen &&& bit ≠ 0 then some s.counted
      else some (s.counted.behind (if back < 128 then s.seen ||| bit else s.seen))

def sample : Option (SampleReport × StreamState) := do
  let received ← checkedSub s.packetsReceived s.sampledReceived
  let expected ← checkedSub s.packetsExpected s.sampledExpected
  let outOfOrder ← checkedSub s.packetsOutOfOrder s.sampledOutOfOrder
  pure (⟨received, expected, s.packetsLost - s.sampledLost, outOfOrder⟩,
    { s with
      sampledReceived := s.packetsReceived
      sampledExpected := s.packetsExpected
      sampledLost := s.packetsLost
      sampledOutOfOrder := s.packetsOutOfOrder })

variable {s} {seq : UInt16} (hStarted : s.firstPacket = false)
include hStarted

theorem update_ahead {u : ℕ} (hu : (seq - s.lastSeq).toNat = u) (hPos : 0 < u) (hLt : u < 3000) :
    s.update seq = some (s.counted.ahead seq u (u - 1)) := by
  have hNe : seq - s.lastSeq ≠ 0 := fun h => hPos.ne (hu ▸ h ▸ rfl)
  have hAhead : seq - s.lastSeq < maxDropout := UInt16.lt_iff_toNat_lt.mpr (hu ▸ hLt)
  rw [update, hStarted, if_neg Bool.false_ne_true]
  dsimp only
  rw [if_neg hNe, if_pos hAhead, hu, checkedSub, if_pos (Nat.succ_le_of_lt hPos), Option.map_some]

theorem update_behind {back : ℕ} (hBack : (s.lastSeq - seq).toNat = back) (hFar : 65435 < (seq - s.lastSeq).toNat)
    (hLe : back ≤ 100) : s.update seq = some (if s.seen.getLsbD back then s.counted
      else s.counted.behind (s.seen ||| BitVec.twoPow 128 back)) := by
  have hNe : seq - s.lastSeq ≠ 0 := fun h => by
    rw [h] at hFar
    cases hFar
  have hAhead : ¬ seq - s.lastSeq < maxDropout := fun h => by
    have hLt : (seq - s.lastSeq).toNat < 3000 := UInt16.lt_iff_toNat_lt.mp h
    omega
  have hJump : ¬ seq - s.lastSeq ≤ 65535 - maxMisorder := fun h => hFar.not_ge (UInt16.le_iff_toNat_le.mp h)
  have hInside : back < 128 := by omega
  have hPower : BitVec.twoPow 128 back ≠ 0#128 := fun h => by
    have hTop := congrArg (·.getLsbD back) h
    simp [BitVec.getLsbD_twoPow] at hTop
    omega
  rw [update, hStarted, if_neg Bool.false_ne_true]
  dsimp only
  rw [if_neg hNe, if_neg hAhead, if_neg hJump, hBack, min_eq_left (by omega), ← BitVec.twoPow_eq, BitVec.and_twoPow,
    if_pos hInside]
  cases s.seen.getLsbD back <;> simp [hInside, hPower]

end StreamState

/-! ## The numbers behind the counters -/

inductive StreamOp where
  | packet (seq : UInt16)
  | sample

/-- A stream and what it has received, unwrapped. `late` are the numbers that arrived after a higher one. -/
structure Watched where
  state : StreamState
  underflow : Bool
  first : ℤ
  highest : ℤ
  received : Finset ℤ
  late : Finset ℤ

namespace Watched

variable (t : Watched)

def number (seq : UInt16) : ℤ :=
  let ahead := (seq - t.state.lastSeq).toNat
  if ahead < 2 ^ 15 then t.highest + ahead else t.highest + ahead - 2 ^ 16

noncomputable def missing : Finset ℤ := Finset.Icc t.first t.highest \ t.received

def arrive (n : ℤ) : Watched :=
  { t with
    highest := max t.highest n
    received := insert n t.received
    late := if n < t.highest ∧ n ∉ t.received then insert n t.late else t.late }

def apply : StreamOp → Watched
  | .packet seq =>
    match t.state.update seq with
    | some state => { t.arrive (t.number seq) with state }
    | none => { t with underflow := true }
  | .sample =>
    match t.state.sample with
    | some (_, state) => { t with state }
    | none => { t with underflow := true }

def start (seq : UInt16) : Watched where
  state := (StreamState.new.update seq).getD .new
  underflow := (StreamState.new.update seq).isNone
  first := seq.toNat
  highest := seq.toNat
  received := {(seq.toNat : ℤ)}
  late := ∅

/-- Less than 3000 ahead of the highest number and at most 100 behind. -/
def InReach : StreamOp → Prop
  | .packet seq => t.highest - 100 ≤ t.number seq ∧ t.number seq < t.highest + 3000
  | .sample => True

structure Counts : Prop where
  underflow : t.underflow = false
  lost : t.state.packetsLost = t.missing.card
  expected : (t.state.packetsExpected : ℤ) = t.highest - t.first + 1
  outOfOrder : t.state.packetsOutOfOrder = t.late.card

/-- The counters say what was received, and a repeated number changes neither losses nor reorderings. -/
structure Exact : Prop extends Counts t where
  duplicate : ∀ seq, t.InReach (.packet seq) → t.number seq ∈ t.received →
    (t.apply (.packet seq)).state.packetsLost = t.state.packetsLost ∧
      (t.apply (.packet seq)).state.packetsOutOfOrder = t.state.packetsOutOfOrder

/-- A new number from before the first packet arrives only while nothing is missing. -/
def KeepsLoss : StreamOp → Prop
  | .packet seq => t.number seq < t.first → t.number seq ∈ t.received ∨ t.missing = ∅
  | .sample => True

structure Sound : Prop extends Counts t where
  started : t.state.firstPacket = false
  ordered : t.first ≤ t.highest
  seen : ∀ k < 128, t.state.seen.getLsbD k = true ↔ t.highest - k ∈ t.received
  highest : t.highest ∈ t.received
  below : ∀ n ∈ t.received, n ≤ t.highest
  late : t.late ⊆ t.received
  sampledReceived : t.state.sampledReceived ≤ t.state.packetsReceived
  sampledExpected : t.state.sampledExpected ≤ t.state.packetsExpected
  sampledOutOfOrder : t.state.sampledOutOfOrder ≤ t.state.packetsOutOfOrder

variable {t} {seq : UInt16}

theorem sound_start (seq : UInt16) : (start seq).Sound where
  underflow := rfl
  lost := by simp [start, missing, StreamState.update, StreamState.new, StreamState.counted, StreamState.initSeq]
  expected := by simp [start, StreamState.update, StreamState.new]
  outOfOrder := rfl
  started := rfl
  ordered := le_rfl
  seen k hk := by
    show (1 : BitVec 128).getLsbD k = true ↔ (seq.toNat : ℤ) - k ∈ ({(seq.toNat : ℤ)} : Finset ℤ)
    simp [BitVec.getLsbD_one]
  highest := mem_singleton_self _
  below n hn := (mem_singleton.mp hn).le
  late := empty_subset _
  sampledReceived := Nat.zero_le _
  sampledExpected := Nat.zero_le _
  sampledOutOfOrder := Nat.zero_le _

/-- A packet in reach repeats the highest number, is ahead of it or behind. -/
theorem reach_cases (h : t.InReach (.packet seq)) :
    seq = t.state.lastSeq ∧ t.number seq = t.highest ∨
    (∃ u : ℕ, (seq - t.state.lastSeq).toNat = u ∧ 0 < u ∧ u < 3000 ∧ t.number seq = t.highest + u) ∨
    ∃ back : ℕ, (t.state.lastSeq - seq).toNat = back ∧ 65435 < (seq - t.state.lastSeq).toNat ∧ back ≤ 100 ∧
      t.number seq = t.highest - back := by
  have hSeq := seq.toNat_lt
  have hLast := t.state.lastSeq.toNat_lt
  simp only [InReach, number, UInt16.toNat_sub, ← UInt16.toNat_inj] at h ⊢
  split at h
  · next hNear =>
    obtain hZero | hPos := Nat.eq_zero_or_pos ((2 ^ 16 - t.state.lastSeq.toNat + seq.toNat) % 2 ^ 16)
    · left
      omega
    · right
      left
      refine ⟨_, rfl, hPos, by omega, if_pos hNear⟩
  · right
    right
    refine ⟨_, rfl, by omega, by omega, by omega⟩

theorem missing_behind {n : ℤ} (hn : n < t.highest) : (t.arrive n).missing = t.missing.erase n := by
  rw [missing, arrive, max_eq_left hn.le, sdiff_insert]
  rfl

section

variable (h : t.Sound)
include h

theorem card_missing_ahead {n : ℤ} (hn : t.highest < n) :
    (t.arrive n).missing.card = t.missing.card + (n - t.highest - 1).toNat := by
  have hSplit : (t.arrive n).missing = t.missing ∪ Finset.Ioo t.highest n := by
    ext m
    have hOrdered := h.ordered
    have hBelow := h.below m
    simp only [missing, arrive, max_eq_right hn.le, mem_sdiff, mem_Icc, mem_insert,
      mem_union, mem_Ioo]
    by_cases hm : m ∈ t.received
    · have := hBelow hm
      simp only [hm, not_true_eq_false, or_true, and_false, false_or, false_iff, not_and]
      omega
    · simp only [hm, not_false_eq_true, or_false, and_true]
      omega
  have hApart : Disjoint t.missing (Finset.Ioo t.highest n) := by
    rw [disjoint_left]
    intro m hm hLater
    have hLe := (mem_Icc.mp (mem_sdiff.mp hm).1).2
    exact absurd (mem_Ioo.mp hLater).1 (not_lt.mpr hLe)
  rw [hSplit, card_union_of_disjoint hApart, Int.card_Ioo]

theorem apply_duplicate (hReach : t.InReach (.packet seq)) (hDup : t.number seq ∈ t.received) :
    t.apply (.packet seq) = { t with state := t.state.counted } := by
  have hUpdate : t.state.update seq = some t.state.counted := by
    obtain ⟨rfl, -⟩ | ⟨u, -, hPos, -, hNumber⟩ | ⟨back, hBack, hFar, hLe, hNumber⟩ := reach_cases hReach
    · simp [StreamState.update, h.started]
    · have hAbove := h.below _ hDup
      omega
    · rw [StreamState.update_behind h.started hBack hFar hLe, if_pos ((h.seen back (by omega)).mpr (hNumber ▸ hDup))]
  rw [apply, hUpdate, arrive, max_eq_left (h.below _ hDup), insert_eq_of_mem hDup,
    if_neg (fun hLate => hLate.2 hDup)]

theorem exact : t.Exact where
  toCounts := h.toCounts
  duplicate seq hReach hDup := by
    rw [apply_duplicate h hReach hDup]
    exact ⟨rfl, rfl⟩

theorem seen_ahead {u : ℕ} (hPos : 0 < u) {k : ℕ} (hk : k < 128) :
    ((if 128 ≤ u then 0 else t.state.seen <<< u) ||| 1).getLsbD k = true ↔
      t.highest + u - k ∈ insert (t.highest + u) t.received := by
  rw [BitVec.getLsbD_or, Bool.or_eq_true, mem_insert]
  by_cases hZero : k = 0
  · simp [hZero]
  have hNe : t.highest + u - k ≠ t.highest + u := by omega
  have hOne : (1 : BitVec 128).getLsbD k ≠ true := by simp [BitVec.getLsbD_one, hZero]
  rw [or_iff_left hOne, or_iff_right hNe]
  by_cases hLt : k < u
  · -- The numbers between the two highest ones have not been received.
    refine iff_of_false ?_ fun hMem => ?_
    · split
      · simp
      · simp [BitVec.getLsbD_shiftLeft, hLt]
    · have hLe := h.below _ hMem
      omega
  · have hOld := h.seen (k - u) (by omega)
    rw [show t.highest - ((k - u : ℕ) : ℤ) = t.highest + u - k by omega] at hOld
    rw [if_neg (by omega), BitVec.getLsbD_shiftLeft, ← hOld]
    simp [hk, hLt]

theorem sound_ahead {u : ℕ} (hu : (seq - t.state.lastSeq).toNat = u) (hPos : 0 < u) (hLt : u < 3000)
    (hNumber : t.number seq = t.highest + u) : (t.apply (.packet seq)).Sound := by
  have hAbove : t.highest < t.highest + u := by omega
  have hCard := card_missing_ahead h hAbove
  have hLate : ¬ (t.highest + u < t.highest ∧ t.highest + u ∉ t.received) := fun hLate => hAbove.not_gt hLate.1
  rw [apply, StreamState.update_ahead h.started hu hPos hLt, hNumber]
  rw [arrive, max_eq_right hAbove.le, if_neg hLate] at hCard ⊢
  refine { h with
    lost := Eq.trans ?_ hCard.symm
    expected := ?_
    ordered := h.ordered.trans hAbove.le
    seen := fun k => seen_ahead h hPos
    highest := mem_insert_self ..
    below := fun n hn => ?_
    late := h.late.trans (subset_insert ..)
    sampledReceived := Nat.le_succ_of_le h.sampledReceived
    sampledExpected := Nat.le_add_right_of_le h.sampledExpected }
  · rw [← h.lost]
    show t.state.packetsLost + (u - 1) = _
    omega
  · have hExpected := h.expected
    show ((t.state.packetsExpected + u : ℕ) : ℤ) = t.highest + u - t.first + 1
    omega
  · obtain rfl | hOld := mem_insert.mp hn
    · exact le_rfl
    · exact (h.below n hOld).trans hAbove.le

section

variable {back : ℕ} (hBack : (t.state.lastSeq - seq).toNat = back) (hFar : 65435 < (seq - t.state.lastSeq).toNat)
  (hLe : back ≤ 100) (hNumber : t.number seq = t.highest - back) (hNew : t.number seq ∉ t.received)
include hBack hFar hLe hNumber hNew

theorem apply_behind : t.apply (.packet seq) =
      { t with
        received := insert (t.number seq) t.received
        late := insert (t.number seq) t.late
        state := t.state.counted.behind (t.state.seen ||| BitVec.twoPow 128 back) } ∧
    (t.apply (.packet seq)).missing = t.missing.erase (t.number seq) := by
  have hNe : t.number seq ≠ t.highest := fun hEq => hNew (hEq ▸ h.highest)
  have hBelow : t.number seq < t.highest := by omega
  have hMissing := missing_behind hBelow
  rw [apply, StreamState.update_behind h.started hBack hFar hLe,
    if_neg (fun hBit => hNew (hNumber ▸ (h.seen back (by omega)).mp hBit))]
  refine ⟨?_, hMissing⟩
  rw [arrive, max_eq_left hBelow.le, if_pos ⟨hBelow, hNew⟩]

theorem sound_behind (hKeeps : t.KeepsLoss (.packet seq)) : (t.apply (.packet seq)).Sound := by
  obtain ⟨hApply, hMissing⟩ := apply_behind h hBack hFar hLe hNumber hNew
  have hLost : t.state.packetsLost - 1 = (t.missing.erase (t.number seq)).card := by
    rw [h.lost]
    by_cases hIn : t.number seq ∈ t.missing
    · rw [card_erase_of_mem hIn]
    · have hOld : t.number seq < t.first := by
        rw [missing, mem_sdiff, mem_Icc, not_and_not_right] at hIn
        by_contra hAfter
        exact hNew (hIn ⟨by omega, by omega⟩)
      rw [(hKeeps hOld).resolve_left hNew]
      rfl
  rw [← hMissing] at hLost
  rw [hApply] at hLost ⊢
  refine { h with
    lost := hLost
    outOfOrder := (congrArg (· + 1) h.outOfOrder).trans (card_insert_of_notMem fun hLate => hNew (h.late hLate)).symm
    seen := fun k hk => ?_
    highest := mem_insert_of_mem h.highest
    below := fun n hn => ?_
    late := insert_subset_insert _ h.late
    sampledReceived := Nat.le_succ_of_le h.sampledReceived
    sampledOutOfOrder := Nat.le_succ_of_le h.sampledOutOfOrder }
  · have hBit : (BitVec.twoPow 128 back).getLsbD k = true ↔ t.highest - (k : ℤ) = t.number seq := by
      rw [BitVec.getLsbD_twoPow, decide_eq_true (show back < 128 by omega), Bool.true_and, decide_eq_true_iff]
      omega
    rw [mem_insert, ← hBit, ← h.seen k hk, or_comm, ← Bool.or_eq_true, ← BitVec.getLsbD_or]
    rfl
  · obtain rfl | hOld := mem_insert.mp hn
    · show t.number seq ≤ t.highest
      omega
    · exact h.below n hOld

end

theorem sound_apply {op : StreamOp} (hReach : t.InReach op) (hKeeps : t.KeepsLoss op) : (t.apply op).Sound := by
  cases op with
  | packet seq =>
    by_cases hDup : t.number seq ∈ t.received
    · rw [apply_duplicate h hReach hDup]
      exact { h with sampledReceived := Nat.le_succ_of_le h.sampledReceived }
    obtain ⟨-, hNumber⟩ | ⟨u, hu, hPos, hLt, hNumber⟩ | ⟨back, hBack, hFar, hLe, hNumber⟩ := reach_cases hReach
    · exact absurd (hNumber ▸ h.highest) hDup
    · exact sound_ahead h hu hPos hLt hNumber
    · exact sound_behind h hBack hFar hLe hNumber hDup hKeeps
  | sample =>
    rw [apply, StreamState.sample]
    simp only [checkedSub, if_pos h.sampledReceived, if_pos h.sampledExpected, if_pos h.sampledOutOfOrder]
    exact { h with sampledReceived := le_rfl, sampledExpected := le_rfl, sampledOutOfOrder := le_rfl }

theorem keepsLoss_of_exact {op : StreamOp} (hReach : t.InReach op) (hAfter : (t.apply op).Exact) : t.KeepsLoss op := by
  cases op with
  | sample => trivial
  | packet seq =>
    intro hOld
    by_cases hDup : t.number seq ∈ t.received
    · exact .inl hDup
    right
    have hOrdered := h.ordered
    obtain ⟨-, hNumber⟩ | ⟨u, hu, hPos, hLt, hNumber⟩ | ⟨back, hBack, hFar, hLe, hNumber⟩ := reach_cases hReach
    · omega
    · omega
    obtain ⟨hApply, hMissing⟩ := apply_behind h hBack hFar hLe hNumber hDup
    have hLost := hAfter.lost
    have hOut : t.number seq ∉ t.missing := fun hIn => by
      have hFirst := (mem_Icc.mp (mem_sdiff.mp hIn).1).1
      omega
    rw [hMissing, erase_eq_of_notMem hOut, hApply] at hLost
    have hSame : t.state.packetsLost - 1 = t.state.packetsLost := hLost.trans h.lost.symm
    rw [← card_eq_zero, ← h.lost]
    omega

end

/-- Over packets in reach and samples the accounting is exact exactly if no new number from before the first packet
arrives while something is missing. -/
theorem loss_exact_iff (seq : UInt16) {ops : List StreamOp} (hReach : Trace.Allowed apply InReach (start seq) ops) :
    (∀ pre, pre <+: ops → (Trace.run apply (start seq) pre).Exact) ↔ Trace.Allowed apply KeepsLoss (start seq) ops :=
  hReach.prefixes_iff (fun _ h => exact h) (fun _ _ h hOk hAfter => keepsLoss_of_exact h hOk hAfter)
    (fun _ _ h hOk hKeeps => sound_apply h hOk hKeeps) (sound_start seq)

theorem loss_exact_iff_swapped : Trace.Allowed apply InReach (start 65535) [.packet 1, .packet 0] ∧
    ((∀ pre, pre <+: [.packet 1, .packet 0] → (Trace.run apply (start 65535) pre).Exact) ↔
      Trace.Allowed apply KeepsLoss (start 65535) [.packet 1, .packet 0]) :=
  have hReach := ⟨⟨by decide, by decide⟩, ⟨by decide, by decide⟩, trivial⟩
  ⟨hReach, loss_exact_iff 65535 hReach⟩

/-- The number before the first is credited for the one that is missing. -/
theorem older_packet_credited : Trace.Allowed apply InReach (start 1000) [.packet 1002, .packet 999] ∧
    (Trace.run apply (start 1000) [.packet 1002, .packet 999]).state.packetsLost = 0 ∧
    (Trace.run apply (start 1000) [.packet 1002, .packet 999]).missing = {1001} :=
  ⟨⟨⟨by decide, by decide⟩, ⟨by decide, by decide⟩, trivial⟩, by decide, by decide⟩

end Watched

end Turna.Rtp
