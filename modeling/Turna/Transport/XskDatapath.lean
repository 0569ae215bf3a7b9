import Mathlib.Algebra.Order.Group.Multiset
import Mathlib.Tactic.Abel

/-! # Frames of the AF_XDP datapath

The frames of the UMEM move between the free list, the rings of the kernel and the descriptors that wait for the fill
ring. What a ring accepts or hands back is an input. A frame is known by its number.
-/

namespace Turna.Transport.AfXdp
open List Multiset

inductive FatalIo where
  | rxPoll
  | txReused
  | txSubmission
  | txReadback
  | txCorrupted

/-- `rx` and `tx` are the frames that the kernel holds, `lost` those given to nobody. `misused` is raised when a frame
is used while the kernel holds it. -/
structure XskDatapath where
  freeFrames : List Nat
  pendingFill : List Nat
  compScratch : Nat
  rxScratch : Nat
  txProduced : Nat
  compConsumed : Nat
  trace : Option (List Nat)
  fatalIo : Option FatalIo
  rx : Multiset Nat
  tx : Multiset Nat
  lost : Multiset Nat
  misused : Bool

def rxBatchMax : Nat := 256

/-- What `produce_and_wakeup` answers for one frame. After an error the frame may have been published. -/
inductive TxAnswer where
  | accepted
  | full
  | failed (published : Bool)

/-- The completions taken before it, how the packet is built and read back, whether it is traced, and the answer of
the ring. -/
structure Transmission where
  completions : List (Nat × Bool)
  built : Bool
  written : Bool
  readsBack : Bool
  stun : Bool
  answer : TxAnswer

namespace XskDatapath

variable (s : XskDatapath)

/-- The frames that `bind` sets aside as scratch. -/
def setAside (frameCount : Nat) : Nat := min frameCount 64 + min (frameCount - min frameCount 64) rxBatchMax

def bindInner (frameCount produced : Nat) (traced : Bool) : XskDatapath :=
  let frames := (List.range frameCount).drop (setAside frameCount)
  let forRx := frames.take (frames.length / 2)
  { freeFrames := frames.drop (frames.length / 2)
    pendingFill := forRx.drop produced
    compScratch := min frameCount 64
    rxScratch := min (frameCount - min frameCount 64) rxBatchMax
    txProduced := 0
    compConsumed := 0
    trace := if traced then some [] else none
    fatalIo := none
    rx := forRx.take produced
    tx := 0
    lost := 0
    misused := false }

def touch (frames : List Nat) : XskDatapath :=
  { s with misused := s.misused || frames.any fun f => f ∈ s.rx + s.tx }

def refill (accepted : Nat) : XskDatapath :=
  { s.touch s.pendingFill with
    pendingFill := s.pendingFill.drop accepted
    rx := s.rx + s.pendingFill.take accepted }

/-- The outcome is that of comparing a traced frame with what was submitted. -/
def complete (completion : Nat × Bool) : XskDatapath :=
  let traced := s.trace.any fun pending => completion.1 ∈ pending
  { s with
    trace := s.trace.map fun pending => pending.erase completion.1
    fatalIo := if traced ∧ ¬ completion.2 then some .txCorrupted else s.fatalIo
    freeFrames := completion.1 :: s.freeFrames }

/-- Nothing happens on completions that the kernel cannot give. -/
def reclaimCompletions (completions : List (Nat × Bool)) : XskDatapath :=
  let frames := completions.map Prod.fst
  if s.compScratch < frames.length ∨ ¬ (frames : Multiset Nat) ≤ s.tx then s
  else
    completions.foldl complete { s with tx := s.tx - frames, compConsumed := s.compConsumed + frames.length }

def submitTx (desc : Nat) (t : Transmission) : XskDatapath :=
  if s.fatalIo.isSome then { s with lost := {desc} + s.lost }
  else if s.trace.any fun pending => desc ∈ pending then
    { s with fatalIo := some .txReused, lost := {desc} + s.lost }
  else
    match t.answer with
    | .accepted =>
      { s with
        tx := {desc} + s.tx
        txProduced := s.txProduced + 1
        trace := if t.stun then s.trace.map (desc :: ·) else s.trace }
    | .full => { s with freeFrames := desc :: s.freeFrames }
    | .failed true => { s with fatalIo := some .txSubmission, tx := {desc} + s.tx }
    | .failed false => { s with fatalIo := some .txSubmission, lost := {desc} + s.lost }

/-- The common part of the sends and replies; only a send is `verified` by reading it back. -/
def transmit (verified : Bool) (t : Transmission) : XskDatapath :=
  let s := s.reclaimCompletions t.completions
  match s.freeFrames with
  | [] => s
  | desc :: rest =>
    if ¬ t.built then s
    else
      let s := s.touch [desc]
      if ¬ t.written then s
      else if verified ∧ s.trace.isSome ∧ ¬ t.readsBack then { s with fatalIo := some .txReadback }
      else { s with freeFrames := rest }.submitTx desc t

def sendTo (t : Transmission) : XskDatapath := s.transmit true t

def sendToFrom (t : Transmission) : XskDatapath := s.transmit true t

/-- An ARP or NDP request that is not for us is not answered. -/
def maybeReply (t : Transmission) : XskDatapath := if t.built then s.transmit false t else s

structure Reception where
  max : Nat
  completions : List (Nat × Bool)
  accepted : Nat
  polled : Option (List Nat)
  acceptedAgain : Nat
  replies : List Transmission

def recvBatch (r : Reception) : XskDatapath :=
  let s := (s.reclaimCompletions r.completions).refill r.accepted
  if min s.rxScratch r.max = 0 then s
  else
    match r.polled with
    | none => { s with fatalIo := some .rxPoll }
    | some descs =>
      if s.rxScratch < descs.length ∨ ¬ (descs : Multiset Nat) ≤ s.rx then s
      else
        let s := { s with rx := s.rx - descs, pendingFill := s.pendingFill ++ descs }
        r.replies.foldl maybeReply (s.refill r.acceptedAgain)

inductive Call where
  | recvBatch (r : Reception)
  | sendTo (t : Transmission)
  | sendToFrom (t : Transmission)
  | reclaimCompletions (completions : List (Nat × Bool))

def step : Call → XskDatapath
  | .recvBatch r => s.recvBatch r
  | .sendTo t => s.sendTo t
  | .sendToFrom t => s.sendToFrom t
  | .reclaimCompletions completions => s.reclaimCompletions completions

def txInflight : Nat := s.txProduced - s.compConsumed

/-- Every frame is in one place, `hand` being those the caller holds. -/
structure Owned (frames hand : Multiset Nat) : Prop where
  parts : hand + s.freeFrames + s.pendingFill + s.rx + s.tx + s.lost = frames
  apart : frames.Nodup
  kept : s.fatalIo = none → s.lost = 0 ∧ s.txProduced = s.compConsumed + s.tx.card
  used : s.misused = false

variable {s} {frames hand : Multiset Nat}

theorem Owned.touch (h : s.Owned frames hand) {l : List Nat} (hMine : ∀ f ∈ l, f ∈ hand + s.freeFrames + s.pendingFill) :
    (s.touch l).Owned frames hand where
  parts := h.parts
  apart := h.apart
  kept := h.kept
  used := by
    have hApart := h.apart
    rw [← h.parts, add_assoc, add_assoc, Multiset.nodup_add, ← add_assoc, Multiset.disjoint_left] at hApart
    have hKernel : ∀ f ∈ l, f ∉ s.rx + s.tx :=
      fun f hf hHeld => hApart.2.2 (hMine f hf) (Multiset.mem_add.mpr (.inl hHeld))
    simpa [XskDatapath.touch, h.used] using hKernel

theorem Owned.refill (h : s.Owned frames hand) (accepted : Nat) : (s.refill accepted).Owned frames hand := by
  have hTouched := h.touch (l := s.pendingFill) fun f hf => mem_add.mpr (.inr hf)
  refine { hTouched with parts := ?_ }
  have hSplit : (s.pendingFill : Multiset Nat) = s.pendingFill.take accepted + s.pendingFill.drop accepted := by
    rw [coe_add, take_append_drop]
  rw [← h.parts, hSplit]
  simp only [XskDatapath.refill, XskDatapath.touch]
  abel

theorem Owned.completed {completions : List (Nat × Bool)}
    (h : s.Owned frames (hand + (completions.map Prod.fst : List Nat))) : (completions.foldl complete s).Owned frames hand := by
  induction completions generalizing s with
  | nil => simpa using h
  | cons completion completions ih =>
    refine ih ⟨?_, h.apart, ?_, h.used⟩
    · rw [← h.parts]
      simp only [complete, List.map_cons, ← Multiset.cons_coe, ← Multiset.singleton_add]
      abel
    · intro hFatal
      simp only [complete] at hFatal
      split at hFatal
      · cases hFatal
      · exact h.kept hFatal

theorem Owned.reclaim (h : s.Owned frames hand) (completions : List (Nat × Bool)) :
    (s.reclaimCompletions completions).Owned frames hand := by
  rw [reclaimCompletions]
  split
  · exact h
  next hTaken =>
  obtain ⟨rest, hRest⟩ := Multiset.le_iff_exists_add.mp (not_not.mp (not_or.mp hTaken).2)
  refine Owned.completed ⟨?_, h.apart, ?_, h.used⟩
  · rw [← h.parts, hRest, add_tsub_cancel_left]
    abel
  · intro hFatal
    have hKept := h.kept hFatal
    rw [hRest, card_add, coe_card] at hKept
    simp only [hRest, add_tsub_cancel_left]
    exact ⟨hKept.1, by omega⟩

theorem Owned.submit {desc : Nat} (h : s.Owned frames {desc}) (t : Transmission) : (s.submitTx desc t).Owned frames 0 := by
  refine ⟨?_, h.apart, ?_, ?_⟩
  · rw [← h.parts]
    fun_cases submitTx s desc t <;> simp only [← cons_coe, ← singleton_add] <;> abel
  · fun_cases submitTx s desc t with
    | case1 hFatal =>
      intro hNone
      simp [show s.fatalIo = none from hNone] at hFatal
    | case3 hFatal =>
      intro hNone
      have hKept := h.kept hNone
      simp only [card_add, card_singleton]
      exact ⟨hKept.1, by omega⟩
    | case4 => exact h.kept
    | _ => exact nofun
  · fun_cases submitTx s desc t <;> exact h.used

theorem Owned.transmit (h : s.Owned frames 0) (verified : Bool) (t : Transmission) :
    (s.transmit verified t).Owned frames 0 := by
  have hReclaimed := h.reclaim t.completions
  rw [XskDatapath.transmit]
  generalize s.reclaimCompletions t.completions = s at hReclaimed
  simp only
  split
  · exact hReclaimed
  next desc rest hFree =>
  have hTouched := hReclaimed.touch (l := [desc]) (by simp [hFree])
  split
  · exact hReclaimed
  split
  · exact hTouched
  split
  · exact ⟨hTouched.parts, hTouched.apart, nofun, hTouched.used⟩
  · have hParts := hTouched.parts
    have hPopped : XskDatapath.Owned { s.touch [desc] with freeFrames := rest } frames {desc} := by
      refine ⟨?_, hTouched.apart, hTouched.kept, hTouched.used⟩
      rw [← hParts]
      simp only [XskDatapath.touch, hFree, ← cons_coe, ← singleton_add]
      abel
    exact hPopped.submit t

theorem Owned.replies (h : s.Owned frames 0) (replies : List Transmission) :
    (replies.foldl maybeReply s).Owned frames 0 := by
  induction replies generalizing s with
  | nil => exact h
  | cons t replies ih =>
    refine ih ?_
    rw [maybeReply]
    split
    · exact h.transmit false t
    · exact h

theorem Owned.recvBatch (h : s.Owned frames 0) (r : Reception) : (s.recvBatch r).Owned frames 0 := by
  have hFilled := (h.reclaim r.completions).refill r.accepted
  rw [XskDatapath.recvBatch]
  generalize (s.reclaimCompletions r.completions).refill r.accepted = s at hFilled
  simp only
  split
  · exact hFilled
  split
  · exact ⟨hFilled.parts, hFilled.apart, nofun, hFilled.used⟩
  next descs _ =>
  split
  · exact hFilled
  next hTaken =>
  obtain ⟨rest, hRest⟩ := Multiset.le_iff_exists_add.mp (not_not.mp (not_or.mp hTaken).2)
  have hTaken : XskDatapath.Owned { s with rx := s.rx - descs, pendingFill := s.pendingFill ++ descs } frames 0 := by
    refine ⟨?_, hFilled.apart, hFilled.kept, hFilled.used⟩
    rw [← hFilled.parts, hRest, add_tsub_cancel_left, ← coe_add]
    abel
  exact (hTaken.refill _).replies _

theorem Owned.step (h : s.Owned frames 0) : (call : Call) → (s.step call).Owned frames 0
  | .recvBatch r => h.recvBatch r
  | .sendTo t | .sendToFrom t => h.transmit true t
  | .reclaimCompletions completions => h.reclaim completions

theorem owned_bind (frameCount produced : Nat) (traced : Bool) :
    (bindInner frameCount produced traced).Owned ((List.range frameCount).drop (setAside frameCount)) 0 := by
  constructor
  · simp only [bindInner]
    generalize (List.range frameCount).drop (setAside frameCount) = frames
    conv_rhs => rw [← take_append_drop (frames.length / 2) frames,
      ← take_append_drop produced (frames.take (frames.length / 2))]
    simp only [← coe_add]
    abel
  · exact coe_nodup.mpr (nodup_range.sublist (drop_sublist ..))
  · exact fun _ => ⟨rfl, rfl⟩
  · rfl

end XskDatapath

open XskDatapath

/-- Before a fatal error no frame is lost and the counters tell how many are in flight. -/
theorem frames_owned (frameCount produced : Nat) (traced : Bool) (calls : List Call) :
    let s := calls.foldl step (bindInner frameCount produced traced)
    s.Owned ((List.range frameCount).drop (setAside frameCount)) 0 ∧ (s.fatalIo = none → s.txInflight = s.tx.card) := by
  have hRun : ∀ s : XskDatapath, s.Owned ((List.range frameCount).drop (setAside frameCount)) 0 →
      (calls.foldl step s).Owned ((List.range frameCount).drop (setAside frameCount)) 0 := by
    induction calls with
    | nil => exact fun s h => h
    | cons call calls ih => exact fun s h => ih _ (h.step call)
  have hOwned := hRun _ (owned_bind frameCount produced traced)
  refine ⟨hOwned, fun hFatal => ?_⟩
  have hCount := (hOwned.kept hFatal).2
  rw [txInflight]
  omega

end Turna.Transport.AfXdp
