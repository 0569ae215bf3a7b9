import Mathlib.Algebra.BigOperators.Group.Multiset.Basic
import Mathlib.Tactic.Linarith
import Mathlib.Tactic.Ring
import Turna.Lib.Machine
import Turna.Lib.Trace

/-! # The node-wide byte rate

Tokens and the time of the last refill are two words. A call first credits the time since the last refill: it
loads the time, advances it by compare-and-exchange and, if it wins, adds the bytes; then it takes its own. The
calls of any number of threads interleave between these steps.
-/

namespace Turna.Qos
open Lib Multiset Nat Function

section

/-! ## The packed word -/

def tsBits : Nat := 40

def tsMask : Nat := 2 ^ tsBits - 1

def tokenMask : Nat := 2 ^ (64 - tsBits) - 1

def pack (tokens tsMs : Nat) : Nat := (tokens &&& tokenMask) <<< tsBits ||| (tsMs &&& tsMask)

def unpack (state : Nat) : Nat × Nat := (state >>> tsBits, state &&& tsMask)

variable {tokens max rate ts now : Nat}

theorem unpack_pack {tsMs : Nat} (hTokens : tokens ≤ tokenMask) (hTs : tsMs < 2 ^ tsBits) :
    unpack (pack tokens tsMs) = (tokens, tsMs) := by
  have hLow : tsMs &&& tsMask = tsMs := by
    rw [tsMask, Nat.and_two_pow_sub_one_eq_mod, Nat.mod_eq_of_lt hTs]
  have hHigh : tokens &&& tokenMask = tokens := by
    rw [tokenMask] at hTokens ⊢
    rw [Nat.and_two_pow_sub_one_eq_mod, Nat.mod_eq_of_lt]
    have : 0 < 2 ^ (64 - tsBits) := Nat.two_pow_pos _
    omega
  rw [pack, unpack, hLow, hHigh, ← Nat.shiftLeft_add_eq_or_of_lt hTs, tsMask, Nat.and_two_pow_sub_one_eq_mod,
    Nat.shiftRight_eq_div_pow, Nat.shiftLeft_eq, Nat.add_comm, Nat.add_mul_div_right _ _ (Nat.two_pow_pos _),
    Nat.div_eq_of_lt hTs, Nat.zero_add, Nat.add_mul_mod_self_right, Nat.mod_eq_of_lt hTs]

/-! ## Refill -/

def refill (tokens lastTs nowTs max rate : Nat) : Nat × Nat :=
  if rate = 0 ∨ nowTs ≤ lastTs then (min tokens max, lastTs)
  else
    let elapsed := nowTs - lastTs
    let added := elapsed * rate / 1000 % 2 ^ 64
    if added = 0 then (tokens, lastTs)
    else
      let newTokens := min ((tokens + added) % 2 ^ 64) max
      let newTs := if max ≤ newTokens then nowTs else lastTs + added * 1000 / rate % 2 ^ 64
      (newTokens, newTs)

/-- Rates, per so many units of time, at which a token takes whole units or a unit brings whole tokens. -/
def Even (unit rate : Nat) : Prop := rate ∣ unit ∨ unit ∣ rate

theorem Even.exact {unit rate elapsed : Nat} (h : Even unit rate) (hUnit : 0 < unit) (hPos : 0 < rate) :
    rate * (elapsed * rate / unit * unit / rate) = unit * (elapsed * rate / unit) := by
  obtain ⟨k, hk⟩ | ⟨k, rfl⟩ := h
  · generalize elapsed * rate / unit = added
    rw [show added * unit = rate * (added * k) by rw [hk]; ring, Nat.mul_div_cancel_left _ hPos]
    rw [show unit * added = rate * k * added by rw [← hk]]
    ring
  · rw [show elapsed * (unit * k) = unit * (elapsed * k) by ring, Nat.mul_div_cancel_left _ hUnit,
      show elapsed * k * unit = unit * k * elapsed by ring, Nat.mul_div_cancel_left _ hPos]
    ring

def EvenRate (rate : Nat) : Prop := Even 1000 rate

/-- The time taken off the clock is worth no more than the tokens added for it. -/
inductive Refilled (max rate tokens ts now : Nat) : Nat × Nat → Prop where
  | kept (h : now ≤ ts) : Refilled max rate tokens ts now (min tokens max, ts)
  | short {elapsed : Nat} (hNow : now = ts + elapsed) (hShort : rate * elapsed < 1000) :
      Refilled max rate tokens ts now (tokens, ts)
  | filled {elapsed : Nat} (hNow : now = ts + elapsed) (hWorth : 1000 * max ≤ 1000 * tokens + rate * elapsed) :
      Refilled max rate tokens ts now (max, now)
  | credited {elapsed added used : Nat} (hNow : now = ts + elapsed) (hAdded : 0 < added) (hRoom : tokens + added < max)
      (hUsed : used ≤ elapsed) (hLow : 1000 * added ≤ rate * elapsed) (hHigh : rate * elapsed < 1000 * added + 1000)
      (hExact : EvenRate rate → rate * used = 1000 * added) :
      Refilled max rate tokens ts now (tokens + added, ts + used)

theorem refill_spec {max rate tokens ts now : Nat} (hRate : 0 < rate) (hWide : rate < 2 ^ 32) (hTokens : tokens ≤ max)
    (hMax : max ≤ tokenMask) (hNow : now < 2 ^ tsBits) :
    Refilled max rate tokens ts now (refill tokens ts now max rate) := by
  rw [refill]
  by_cases hOld : now ≤ ts
  · rw [if_pos (.inr hOld)]
    exact .kept hOld
  obtain ⟨elapsed, rfl⟩ : ∃ elapsed, now = ts + elapsed := ⟨now - ts, by omega⟩
  have hElapsed : elapsed * rate < 2 ^ 40 * 2 ^ 32 := mul_lt_mul'' (by rw [tsBits] at hNow; omega) hWide
  have hFits : elapsed * rate / 1000 < 2 ^ 63 := by omega
  have hSmall : max < 2 ^ 24 := by
    rw [tokenMask, tsBits] at hMax
    omega
  rw [if_neg (by omega), Nat.add_sub_cancel_left]
  dsimp only
  rw [mod_eq_of_lt (show elapsed * rate / 1000 < 2 ^ 64 by omega)]
  have hProduct : elapsed * rate = rate * elapsed := mul_comm _ _
  split
  · next hNone => exact .short rfl (by omega)
  next hSome =>
  rw [mod_eq_of_lt (show tokens + elapsed * rate / 1000 < 2 ^ 64 by omega)]
  by_cases hFull : max ≤ tokens + elapsed * rate / 1000
  · rw [min_eq_right hFull, if_pos (le_refl _)]
    exact .filled rfl (by omega)
  have hUsed : elapsed * rate / 1000 * 1000 / rate ≤ elapsed :=
    Nat.div_le_of_le_mul (by rw [Nat.mul_comm rate]; exact Nat.div_mul_le_self _ _)
  rw [min_eq_left (by omega), if_neg hFull,
    mod_eq_of_lt (show elapsed * rate / 1000 * 1000 / rate < 2 ^ 64 by rw [tsBits] at hNow; omega)]
  exact .credited rfl (by omega) (by omega) hUsed (by omega) (by omega) (fun h => h.exact (by decide) hRate)

theorem Refilled.bounds {r : Nat × Nat} (h : Refilled max rate tokens ts now r)
    (hTokens : tokens ≤ max) : r.1 ≤ max ∧ (r.2 ≤ now ∨ r.2 = ts) := by
  cases h with
  | kept => exact ⟨min_le_right _ _, .inr rfl⟩
  | short => exact ⟨hTokens, .inr rfl⟩
  | filled => exact ⟨le_refl _, .inl (le_refl _)⟩
  | credited hNow _ hRoom hUsed => exact ⟨le_of_lt hRoom, .inl (by dsimp only; omega)⟩

/-- At an even rate the tokens are paid for with time; less than a token of time is left. -/
theorem Refilled.worth_le {r newTs : Nat} (h : Refilled max rate tokens ts now (r, newTs))
    (hEven : EvenRate rate) (hTokens : tokens ≤ max) (t : ℤ) :
    1000 * (r : ℤ) + rate * (t - newTs) ≤ 1000 * tokens + rate * (t - ts) ∧
      (ts ≤ now → newTs ≤ now ∧ 1000 * (r : ℤ) + rate * (now - newTs) ≤ 1000 * max + 999) := by
  cases h with
  | kept hOld =>
    rw [min_eq_left hTokens]
    refine ⟨le_refl _, fun hNow => ⟨hNow, ?_⟩⟩
    obtain rfl : now = ts := by omega
    simp
    omega
  | @short elapsed hNow hShort =>
    subst hNow
    zify at hShort hTokens
    refine ⟨le_refl _, fun _ => ⟨by omega, ?_⟩⟩
    push_cast
    linarith
  | @filled elapsed hNow hWorth =>
    subst hNow
    zify at hWorth
    push_cast
    refine ⟨by linarith, fun _ => ⟨le_refl _, by linarith⟩⟩
  | @credited elapsed added used hNow hAdded hRoom hUsed hLow hHigh hExact =>
    subst hNow
    have hPaid := hExact hEven
    zify at hPaid hHigh hRoom
    push_cast
    refine ⟨by linarith, fun _ => ⟨by omega, by linarith⟩⟩

theorem Refilled.behind {r newTs time : Nat} {level : ℤ}
    (h : Refilled max rate tokens ts now (r, newTs)) (hEven : EvenRate rate) (hTokens : tokens ≤ max) (hTime : ts ≤ time)
    (hLeft : rate * (time - ts) < 1000) (hLevel : level ≤ 1000 * tokens + rate * ((time - ts : ℕ) : ℤ)) :
    newTs ≤ Nat.max time now ∧ rate * (Nat.max time now - newTs) < 1000 ∧
      min (1000 * (max : ℤ)) (level + rate * ((now - time : ℕ) : ℤ)) ≤
        1000 * r + rate * ((Nat.max time now - newTs : ℕ) : ℤ) := by
  obtain ⟨late, rfl⟩ : ∃ late, time = ts + late := ⟨time - ts, by omega⟩
  rw [Nat.add_sub_cancel_left] at hLeft hLevel
  have hMax : Nat.max (ts + late) now = if now ≤ ts + late then ts + late else now := by
    change Max.max _ _ = _
    split <;> omega
  rw [hMax]
  cases h with
  | kept hOld =>
    rw [if_pos (by omega), Nat.min_eq_left hTokens, show now - (ts + late) = 0 by omega, Nat.add_sub_cancel_left]
    refine ⟨hTime, hLeft, le_trans (min_le_right _ _) ?_⟩
    simpa using hLevel
  | @short elapsed hNow hShort =>
    subst hNow
    split_ifs with hLe
    · rw [Nat.sub_eq_zero_of_le hLe, Nat.add_sub_cancel_left]
      refine ⟨hTime, hLeft, le_trans (min_le_right _ _) ?_⟩
      simpa using hLevel
    · have hGap : ((ts + elapsed - (ts + late) : ℕ) : ℤ) = elapsed - late := by omega
      rw [hGap, Nat.add_sub_cancel_left]
      refine ⟨by omega, hShort, le_trans (min_le_right _ _) ?_⟩
      linarith
  | @filled elapsed hNow hWorth =>
    subst hNow
    split_ifs with hLe
    · refine ⟨hLe, lt_of_le_of_lt (mul_le_mul_left _ (by omega)) hLeft, le_trans (min_le_left _ _) ?_⟩
      have := Int.natCast_nonneg (rate * (ts + late - (ts + elapsed)))
      push_cast at this
      linarith
    · refine ⟨le_refl _, by simp, le_trans (min_le_left _ _) ?_⟩
      simp
  | @credited elapsed added used hNow hAdded hRoom hUsed hLow hHigh hExact =>
    subst hNow
    have hLt : late < elapsed := by
      by_contra hLe
      have := Nat.mul_le_mul_left rate (Nat.le_of_not_lt hLe)
      omega
    have hPaid := hExact hEven
    have hRest : ((ts + elapsed - (ts + used) : ℕ) : ℤ) = elapsed - used := by omega
    have hGap : ((ts + elapsed - (ts + late) : ℕ) : ℤ) = elapsed - late := by omega
    rw [if_neg (by omega)]
    refine ⟨by omega, ?_, le_trans (min_le_right _ _) ?_⟩
    · rw [Nat.add_sub_add_left, Nat.mul_sub]
      omega
    rw [hRest, hGap]
    zify at hPaid
    push_cast
    linarith

/-! ## Calls of several threads -/

inductive Acquiring where
  | begun (nowMs : Nat)
  | loaded (nowMs cur : Nat)
  deriving DecidableEq, Repr

def Acquiring.nowMs : Acquiring → Nat
  | .begun nowMs => nowMs
  | .loaded nowMs _ => nowMs

/-- The word, the latest time with which a call began, and the call of each thread. -/
structure AtomicTokenBucket where
  state : Nat
  clock : Nat
  calls : Nat → Option Acquiring

inductive AcquireStep where
  | call (thread nowMs : Nat)
  | load (thread : Nat)
  /-- The exchange is a weak one: it may fail although the word is unchanged. -/
  | exchange (thread : Nat) (spurious : Bool)

namespace AtomicTokenBucket

def new (tokens nowMs : Nat) : AtomicTokenBucket := ⟨pack tokens nowMs, nowMs, fun _ => none⟩

variable (max rate : Nat)

/-- The word that a call at `nowMs` wants to store in place of `cur`; none if there is no token. -/
def want (nowMs cur : Nat) : Option Nat :=
  let (tokens, lastTs) := unpack cur
  let (refilled, newTs) := refill tokens lastTs nowMs max rate
  if refilled < 1 then none else some (pack (refilled - 1) newTs)

/-- With the time and the answer of a call that returns. Steps that no thread can take do nothing. -/
def step (b : AtomicTokenBucket) : AcquireStep → Option (Nat × Bool) × AtomicTokenBucket
  | .call thread nowMs =>
    if (b.calls thread).isNone ∧ b.clock ≤ nowMs ∧ nowMs < 2 ^ tsBits then
      (none, { b with clock := nowMs, calls := Function.update b.calls thread (some (.begun nowMs)) })
    else (none, b)
  | .load thread =>
    match b.calls thread with
    | some (.begun nowMs) =>
      match want max rate nowMs b.state with
      | none => (some (nowMs, false), { b with calls := Function.update b.calls thread none })
      | some _ => (none, { b with calls := Function.update b.calls thread (some (.loaded nowMs b.state)) })
    | _ => (none, b)
  | .exchange thread spurious =>
    match b.calls thread with
    | some (.loaded nowMs cur) =>
      match want max rate nowMs cur with
      | some wanted =>
        if b.state = cur ∧ !spurious then
          (some (nowMs, true), { b with state := wanted, calls := Function.update b.calls thread none })
        else (none, { b with calls := Function.update b.calls thread (some (.begun nowMs)) })
      | none => (none, b)
    | _ => (none, b)

def apply (b : AtomicTokenBucket) (s : AcquireStep) : AtomicTokenBucket := (b.step max rate s).2

/-- One, if the step is a grant with a time from `t0` to `t1`. -/
def granted (t0 t1 : Nat) (b : AtomicTokenBucket) (s : AcquireStep) : Nat :=
  match (b.step max rate s).1 with
  | some (nowMs, true) => if t0 ≤ nowMs ∧ nowMs ≤ t1 then 1 else 0
  | _ => 0

structure Sound (b : AtomicTokenBucket) : Prop where
  word : ∃ tokens ts, b.state = pack tokens ts ∧ unpack b.state = (tokens, ts) ∧ tokens ≤ max ∧ ts ≤ b.clock
  clock : b.clock < 2 ^ tsBits
  calls : ∀ thread a, b.calls thread = some a → a.nowMs ≤ b.clock

def Tracks (b b' : AtomicTokenBucket) : Prop :=
  ∃ thread x, b'.calls = Function.update b.calls thread x ∧ ∀ a, x = some a → a.nowMs ≤ b'.clock

inductive StepCase (b : AtomicTokenBucket) (s : AcquireStep) : Option (Nat × Bool) → AtomicTokenBucket → Prop where
  | idle {b' : AtomicTokenBucket} (hState : b'.state = b.state) (hClock : b.clock ≤ b'.clock)
      (hBound : b'.clock < 2 ^ tsBits) (hTracks : Tracks b b') : StepCase b s none b'
  | denied {nowMs : Nat} {b' : AtomicTokenBucket} (hNow : nowMs ≤ b.clock) (hWant : want max rate nowMs b.state = none)
      (hState : b'.state = b.state) (hClock : b'.clock = b.clock) (hTracks : Tracks b b') :
      StepCase b s (some (nowMs, false)) b'
  | granted {nowMs : Nat} {b' : AtomicTokenBucket} {thread : Nat} {spurious : Bool} (hStep : s = .exchange thread spurious)
      (hCall : b.calls thread = some (.loaded nowMs b.state)) (hNow : nowMs ≤ b.clock)
      (hWant : want max rate nowMs b.state = some b'.state) (hClock : b'.clock = b.clock) (hTracks : Tracks b b') :
      StepCase b s (some (nowMs, true)) b'

variable {max rate} {b : AtomicTokenBucket}

theorem step_case (h : Sound max b) (s : AcquireStep) :
    StepCase max rate b s (b.step max rate s).1 (b.step max rate s).2 := by
  have hNothing : StepCase max rate b s none b := .idle rfl (le_refl _) h.clock
    ⟨0, b.calls 0, (update_eq_self 0 b.calls).symm, fun a ha => h.calls 0 a ha⟩
  cases s with
  | call thread nowMs =>
    rw [step]
    split
    · next hOk =>
      refine .idle rfl hOk.2.1 hOk.2.2 ⟨thread, _, rfl, ?_⟩
      rintro a ⟨⟩
      exact le_refl _
    · exact hNothing
  | load thread =>
    rw [step]
    split
    · next nowMs hCall =>
      have hNow := h.calls thread _ hCall
      split
      · next hWant => exact .denied hNow hWant rfl rfl ⟨thread, none, rfl, by simp⟩
      refine .idle rfl (le_refl _) h.clock ⟨thread, _, rfl, ?_⟩
      rintro a ⟨⟩
      exact hNow
    · exact hNothing
  | exchange thread spurious =>
    rw [step]
    split
    · next nowMs cur hCall =>
      have hNow := h.calls thread _ hCall
      split
      · next wanted hWant =>
        split
        · next hSame =>
          obtain ⟨rfl, -⟩ := hSame
          exact .granted rfl hCall hNow hWant rfl ⟨thread, none, rfl, by simp⟩
        refine .idle rfl (le_refl _) h.clock ⟨thread, _, rfl, ?_⟩
        rintro a ⟨⟩
        exact hNow
      · exact hNothing
    · exact hNothing

theorem Tracks.calls {b' : AtomicTokenBucket} (hTracks : Tracks b b') (h : Sound max b) (hClock : b.clock ≤ b'.clock) :
    ∀ thread a, b'.calls thread = some a → a.nowMs ≤ b'.clock := by
  obtain ⟨t, x, hCalls, hNew⟩ := hTracks
  intro thread a hCall
  rw [hCalls] at hCall
  by_cases hEq : thread = t
  · subst hEq
    rw [update_self] at hCall
    exact hNew a hCall
  · rw [update_of_ne hEq] at hCall
    exact le_trans (h.calls thread a hCall) hClock

theorem want_eq_some {nowMs tokens ts wanted : Nat} (hFields : unpack b.state = (tokens, ts))
    (h : want max rate nowMs b.state = some wanted) : ∃ refilled newTs,
      refill tokens ts nowMs max rate = (refilled, newTs) ∧ 1 ≤ refilled ∧ wanted = pack (refilled - 1) newTs := by
  rw [want, hFields] at h
  dsimp only at h
  split at h
  · cases h
  · next hSome => exact ⟨_, _, rfl, Nat.le_of_not_lt hSome, (Option.some.inj h).symm⟩

theorem want_eq_none {nowMs tokens ts : Nat} (hFields : unpack b.state = (tokens, ts))
    (h : want max rate nowMs b.state = none) : (refill tokens ts nowMs max rate).1 = 0 := by
  rw [want, hFields] at h
  dsimp only at h
  split at h
  · next hNone => omega
  · cases h

section Steps

variable (hRate : 0 < rate) (hWide : rate < 2 ^ 32) (hMax : max ≤ tokenMask)
include hRate hWide hMax

theorem granted_fields (h : Sound max b) {nowMs wanted : Nat} (hNow : nowMs ≤ b.clock)
    (hWant : want max rate nowMs b.state = some wanted) : ∃ tokens ts refilled newTs,
      unpack b.state = (tokens, ts) ∧ tokens ≤ max ∧ ts ≤ b.clock ∧ Refilled max rate tokens ts nowMs (refilled, newTs) ∧
        1 ≤ refilled ∧ refilled ≤ max ∧ newTs ≤ b.clock ∧ wanted = pack (refilled - 1) newTs ∧
          unpack wanted = (refilled - 1, newTs) := by
  obtain ⟨tokens, ts, -, hFields, hTokens, hTs⟩ := h.word
  have hClock := h.clock
  obtain ⟨refilled, newTs, hRefill, hSome, rfl⟩ := want_eq_some hFields hWant
  have hSpec := @refill_spec max rate tokens ts nowMs hRate hWide hTokens hMax (by omega)
  rw [hRefill] at hSpec
  obtain ⟨hLe, hTime⟩ := hSpec.bounds hTokens
  exact ⟨tokens, ts, refilled, newTs, hFields, hTokens, hTs, hSpec, hSome, hLe, by omega, rfl,
    unpack_pack (by omega) (by omega)⟩

theorem Sound.step (h : Sound max b) (s : AcquireStep) : Sound max (b.apply max rate s) := by
  have hCase := @step_case max rate b h s
  rw [apply]
  generalize b.step max rate s = r at hCase ⊢
  obtain ⟨answer, b'⟩ := r
  cases hCase with
  | idle hState hClock hBound hTracks =>
    obtain ⟨tokens, ts, hPack, hFields, hTokens, hTs⟩ := h.word
    exact ⟨⟨tokens, ts, hState.trans hPack, hState ▸ hFields, hTokens, by omega⟩, hBound, hTracks.calls h hClock⟩
  | denied _ _ hState hClock hTracks =>
    obtain ⟨tokens, ts, hPack, hFields, hTokens, hTs⟩ := h.word
    refine ⟨⟨tokens, ts, hState.trans hPack, hState ▸ hFields, hTokens, by omega⟩, ?_, hTracks.calls h (by omega)⟩
    rw [hClock]
    exact h.clock
  | granted _ _ hNow hWant hClock hTracks =>
    obtain ⟨tokens, ts, refilled, newTs, -, -, -, -, hSome, hLe, hTime, hPack, hFields⟩ :=
      granted_fields hRate hWide hMax h hNow hWant
    refine ⟨⟨refilled - 1, newTs, hPack, hFields, by omega, by omega⟩, ?_, hTracks.calls h (by omega)⟩
    rw [hClock]
    exact h.clock

end Steps

/-! ## The rate -/

/-- Thousandths of a token that the bucket could have paid out by `t`, without its cap. -/
def worth (rate t : Nat) (b : AtomicTokenBucket) : ℤ :=
  1000 * (unpack b.state).1 + rate * ((t : ℤ) - (unpack b.state).2)

/-- The exchange that grants a call finds no later refill than that of the call itself. -/
def InTime (b : AtomicTokenBucket) (s : AcquireStep) : Prop :=
  ∀ thread spurious nowMs, s = .exchange thread spurious → b.calls thread = some (.loaded nowMs b.state) →
    (unpack b.state).2 ≤ nowMs

section Rate

variable (hRate : 0 < rate) (hWide : rate < 2 ^ 32) (hMax : max ≤ tokenMask)
include hRate hWide hMax

theorem granted_le (hEven : EvenRate rate) {steps : List AcquireStep}
    (hInTime : Trace.Allowed (apply max rate) InTime b steps) (h : Sound max b) (t0 t1 : Nat) (hOrder : t0 ≤ t1) :
    (1000 * Trace.total (apply max rate) (granted max rate t0 t1) b steps : ℤ) ≤
      1000 * max + 999 + rate * ((t1 : ℤ) - t0) := by
  have hSpend (b : AtomicTokenBucket) (s : AcquireStep) (hSound : Sound max b) :
      worth rate t1 (b.apply max rate s) + 1000 * granted max rate t0 t1 b s ≤ worth rate t1 b ∧
        (InTime b s → 0 < granted max rate t0 t1 b s → 0 ≤ worth rate t1 (b.apply max rate s) ∧
          worth rate t1 (b.apply max rate s) + 1000 * granted max rate t0 t1 b s ≤
            1000 * max + 999 + rate * ((t1 : ℤ) - t0)) := by
    have hCase := @step_case max rate b hSound s
    rw [apply, granted]
    generalize b.step max rate s = r at hCase ⊢
    obtain ⟨answer, b'⟩ := r
    cases hCase with
    | idle hState =>
      refine ⟨?_, fun _ hPos => absurd hPos (lt_irrefl 0)⟩
      rw [worth, hState, worth]
      simp
    | denied _ _ hState =>
      refine ⟨?_, fun _ hPos => absurd hPos (lt_irrefl 0)⟩
      rw [worth, hState, worth]
      simp
    | @granted nowMs _ thread spurious hStep hCall hNow hWant hClock =>
      obtain ⟨tokens, ts, refilled, newTs, hFields, hTokens, hTs, hRefilled, hSome, hLe, hTime, hPack, hAfter⟩ :=
        granted_fields hRate hWide hMax hSound hNow hWant
      obtain ⟨hWorth, hFresh⟩ := hRefilled.worth_le hEven hTokens t1
      have hTake : ((refilled - 1 : ℕ) : ℤ) = refilled - 1 := by omega
      dsimp only
      constructor
      · rw [worth, worth, hFields, hAfter]
        rw [hTake]
        split <;> push_cast <;> linarith
      · intro hOk hPos
        split at hPos
        · next hIn =>
          have hOld := hOk thread spurious nowMs hStep hCall
          rw [hFields] at hOld
          obtain ⟨hLast, hCap⟩ := hFresh hOld
          have hRest : (0 : ℤ) ≤ rate * ((t1 : ℤ) - nowMs) := mul_nonneg (by omega) (by omega)
          have hGap : (rate : ℤ) * ((t1 : ℤ) - nowMs) ≤ rate * ((t1 : ℤ) - t0) :=
            mul_le_mul_of_nonneg_left (by omega) (by omega)
          have hClose : (0 : ℤ) ≤ rate * ((nowMs : ℤ) - newTs) := mul_nonneg (by omega) (by omega)
          rw [worth, hAfter, if_pos hIn]
          rw [hTake]
          push_cast
          constructor
          · have : (1 : ℤ) ≤ refilled := by omega
            linarith
          · linarith
        · exact absurd hPos (lt_irrefl 0)
  refine hInTime.total_le (I := Sound max) (k := 1000) (Φ := worth rate t1) ?_ ?_ ?_ ?_ h
  · exact fun s op hSound _ => hSound.step hRate hWide hMax op
  · exact fun s op hSound _ => (hSpend s op hSound).1
  · exact fun s op hSound hOk hPos => (hSpend s op hSound).2 hOk hPos
  · have : (0 : ℤ) ≤ rate * ((t1 : ℤ) - t0) := mul_nonneg (by omega) (by omega)
    linarith

end Rate

/-! ## Denials -/

/-- A bucket that refills exactly, from which the same calls have taken their tokens; in thousandths of a
token. -/
structure ExactBucket where
  level : ℤ
  time : Nat

namespace ExactBucket

variable (max rate : Nat) (e : ExactBucket)

def levelAt (nowMs : Nat) : ℤ := min (1000 * max) (e.level + rate * ((nowMs - e.time : ℕ) : ℤ))

def take (nowMs : Nat) : ExactBucket := ⟨e.levelAt max rate nowMs - 1000, Nat.max e.time nowMs⟩

end ExactBucket

def observe (max rate : Nat) (x : AtomicTokenBucket × ExactBucket) (s : AcquireStep) : AtomicTokenBucket × ExactBucket :=
  (x.1.apply max rate s, match (x.1.step max rate s).1 with
    | some (nowMs, true) => x.2.take max rate nowMs
    | _ => x.2)

def exactAfter (max rate start : Nat) (steps : List AcquireStep) : ExactBucket :=
  (Trace.run (observe max rate) (new max start, ⟨1000 * max, start⟩) steps).2

theorem fst_observe (max rate : Nat) (x : AtomicTokenBucket × ExactBucket) (steps : List AcquireStep) :
    (Trace.run (observe max rate) x steps).1 = Trace.run (apply max rate) x.1 steps := by
  induction steps generalizing x with
  | nil => rfl
  | cons s steps ih => exact ih (observe max rate x s)

/-- The exact bucket holds no more than the real one, of whose time less than a token is left. -/
structure Behind (max rate : Nat) (x : AtomicTokenBucket × ExactBucket) : Prop where
  sound : Sound max x.1
  time : (unpack x.1.state).2 ≤ x.2.time
  left : rate * (x.2.time - (unpack x.1.state).2) < 1000
  level : x.2.level ≤ 1000 * (unpack x.1.state).1 + rate * ((x.2.time - (unpack x.1.state).2 : ℕ) : ℤ)

section Denials

variable (hRate : 0 < rate) (hWide : rate < 2 ^ 32) (hMax : max ≤ tokenMask)
include hRate hWide hMax

variable {x : AtomicTokenBucket × ExactBucket}

theorem Behind.step (hEven : EvenRate rate) (h : Behind max rate x)
    (s : AcquireStep) : Behind max rate (observe max rate x s) := by
  have hSound := h.sound.step hRate hWide hMax s
  have hCase := @step_case max rate x.1 h.sound s
  rw [observe, apply] at *
  generalize x.1.step max rate s = r at hCase hSound ⊢
  obtain ⟨answer, b'⟩ := r
  cases hCase with
  | idle hState | denied _ _ hState => exact ⟨hSound, hState ▸ h.time, hState ▸ h.left, hState ▸ h.level⟩
  | @granted nowMs _ _ _ _ _ hNow hWant =>
    obtain ⟨tokens, ts, refilled, newTs, hFields, hTokens, -, hRefilled, hSome, -, -, -, hAfter⟩ :=
      granted_fields hRate hWide hMax h.sound hNow hWant
    have hTime := h.time
    have hLeft := h.left
    have hLevel := h.level
    rw [hFields] at hTime hLeft hLevel
    obtain ⟨hTime', hLeft', hLevel'⟩ := hRefilled.behind hEven hTokens hTime hLeft hLevel
    have hTake : ((refilled - 1 : ℕ) : ℤ) = refilled - 1 := by omega
    refine ⟨hSound, ?_, ?_, ?_⟩ <;> rw [hAfter]
    · exact hTime'
    · exact hLeft'
    · simp only [ExactBucket.take, ExactBucket.levelAt, hTake]
      linarith

theorem Behind.denied (hPos : 0 < max) (h : Behind max rate x) {s : AcquireStep}
    {nowMs : Nat} (hDenied : (x.1.step max rate s).1 = some (nowMs, false)) : x.2.levelAt max rate nowMs < 1000 := by
  have hCase := @step_case max rate x.1 h.sound s
  obtain ⟨tokens, ts, -, hFields, hTokens, hTs⟩ := h.sound.word
  have hClock := h.sound.clock
  have hTime := h.time
  have hLeft := h.left
  have hLevel := h.level
  rw [hFields] at hTime hLeft hLevel
  rw [hDenied] at hCase
  generalize (x.1.step max rate s).2 = b' at hCase
  cases hCase with
  | denied hNow hWant =>
    have hNone := want_eq_none hFields hWant
    have hSpec := @refill_spec max rate tokens ts nowMs hRate hWide hTokens hMax (by omega)
    generalize refill tokens ts nowMs max rate = r at hNone hSpec
    rw [ExactBucket.levelAt]
    refine lt_of_le_of_lt (min_le_right _ _) ?_
    cases hSpec with
    | kept hOld =>
      have hZero : tokens = 0 := by
        omega
      subst hZero
      rw [show nowMs - x.2.time = 0 by omega]
      zify at hLeft
      push_cast at hLevel hLeft ⊢
      linarith
    | @short elapsed hNow hShort =>
      obtain rfl : tokens = 0 := hNone
      obtain hLe | hLt := le_or_gt nowMs x.2.time
      · rw [show nowMs - x.2.time = 0 by omega]
        zify at hLeft
        push_cast at hLevel hLeft ⊢
        linarith
      · have hGap : ((nowMs - x.2.time : ℕ) : ℤ) = elapsed - (x.2.time - ts : ℕ) := by omega
        rw [hGap]
        zify at hShort
        push_cast at hLevel ⊢
        linarith
    | filled => exact absurd hNone (pos_iff_ne_zero.mp hPos)
    | credited _ hAdded =>
      omega

end Denials

theorem sound_new {max start : Nat} (hMax : max ≤ tokenMask) (hStart : start < 2 ^ tsBits) : Sound max (new max start) where
  word := ⟨max, start, rfl, unpack_pack hMax hStart, le_refl _, le_refl _⟩
  clock := hStart
  calls _ _ h := by cases h

def inTurn (times : List Nat) : List AcquireStep :=
  times.flatMap fun nowMs => [.call 0 nowMs, .load 0, .exchange 0 false]

/-- At 1500 tokens per second one millisecond is worth a token, and the token no whole millisecond. -/
theorem refill_stands_still :
    Trace.total (apply 2 1500) (granted 2 1500 1 1) (new 2 0) (inTurn [0, 0, 1, 1, 1, 1, 1]) = 5 ∧
      2 + (1500 * (1 - 1) + 999) / 1000 = 2 := by
  exact ⟨by decide +kernel, by decide⟩

/-- At even rates a call is denied only if an exact bucket has less than a token; if no call is granted after a refill
of a later one, an interval's grants are within burst and rate. -/
theorem bucket_enforces_rate (max rate : UInt32) (start : Nat) (hMax : 1 ≤ max.toNat ∧ max.toNat ≤ 2 ^ 24 - 1)
    (hRate : 1 ≤ rate.toNat) (hStart : start < 2 ^ 40) (steps : List AcquireStep) :
    (∀ done, done <+: steps → Sound max.toNat (Trace.run (apply max.toNat rate.toNat) (new max.toNat start) done)) ∧
    (EvenRate rate.toNat → ∀ done s nowMs, done ++ [s] <+: steps →
      ((Trace.run (apply max.toNat rate.toNat) (new max.toNat start) done).step max.toNat rate.toNat s).1 =
        some (nowMs, false) →
      (exactAfter max.toNat rate.toNat start done).levelAt max.toNat rate.toNat nowMs < 1000) ∧
    (EvenRate rate.toNat → Trace.Allowed (apply max.toNat rate.toNat) InTime (new max.toNat start) steps →
      ∀ t0 t1, t0 ≤ t1 →
        Trace.total (apply max.toNat rate.toNat) (granted max.toNat rate.toNat t0 t1) (new max.toNat start) steps ≤
          max.toNat + (rate.toNat * (t1 - t0) + 999) / 1000) := by
  have hWide : rate.toNat < 2 ^ 32 := rate.toNat_lt
  have hMask : max.toNat ≤ tokenMask := hMax.2
  have hNew : Sound max.toNat (new max.toNat start) := sound_new hMask hStart
  refine ⟨fun done _ => ?_, fun hEven done s nowMs _ hDenied => ?_, fun hEven hInTime t0 t1 hOrder => ?_⟩
  · exact Trace.run_invariant (Sound max.toNat) (fun b s h => h.step hRate hWide hMask s) done hNew
  · have hBehind : Behind max.toNat rate.toNat
        (Trace.run (observe max.toNat rate.toNat) (new max.toNat start, ⟨1000 * max.toNat, start⟩) done) := by
      refine Trace.run_invariant (Behind max.toNat rate.toNat) (fun x s h => h.step hRate hWide hMask hEven s) done ?_
      have hFields : unpack (new max.toNat start).state = (max.toNat, start) := unpack_pack hMask hStart
      refine ⟨hNew, ?_, ?_, ?_⟩ <;> rw [hFields] <;> simp
    refine hBehind.denied hRate hWide hMask hMax.1 ?_ (s := s)
    rw [fst_observe]
    exact hDenied
  · have hBound := granted_le hRate hWide hMask hEven hInTime hNew t0 t1 hOrder
    have hGap : ((t1 : ℤ) - t0) = ((t1 - t0 : ℕ) : ℤ) := by omega
    rw [hGap] at hBound
    have hNat : 1000 * Trace.total (apply max.toNat rate.toNat) (granted max.toNat rate.toNat t0 t1)
        (new max.toNat start) steps ≤ 1000 * max.toNat + 999 + rate.toNat * (t1 - t0) := by
      exact_mod_cast hBound
    omega

theorem bucket_enforces_rate_once : Trace.total (apply 2 1000) (granted 2 1000 0 9) (new 2 0) (inTurn [5]) = 1 ∧
      Trace.total (apply 2 1000) (granted 2 1000 0 9) (new 2 0) (inTurn [5]) ≤ 2 + (1000 * (9 - 0) + 999) / 1000 := by
  refine ⟨by decide +kernel, ?_⟩
  refine (bucket_enforces_rate 2 1000 0 (by decide) (by decide) (by decide) (inTurn [5])).2.2 (.inr (by decide)) ?_ 0 9
    (by decide)
  refine ⟨?_, ?_, ?_, trivial⟩
  · rintro thread spurious nowMs ⟨⟩
  · rintro thread spurious nowMs ⟨⟩
  · rintro thread spurious nowMs ⟨⟩ hCall
    cases hCall
    decide +kernel

end AtomicTokenBucket

end

/-! ## Bytes -/

def second : Nat := 1000000

/-- Beside the two words: the latest time, all bytes credited, and the grants with their times. -/
structure ByteRateLimiter where
  tokens : Nat
  lastUs : Nat
  clock : Nat
  credited : Nat
  granted : List (Nat × Nat)
  deriving DecidableEq

/-- A call of `try_consume_at` for `n` bytes. -/
inductive Consuming where
  | begun (n nowUs : Nat)
  /-- It is to move the time from `last` by `used` for `add` bytes. -/
  | refilling (n nowUs last add used : Nat)
  /-- It has moved the time and is to add the bytes. -/
  | crediting (n nowUs add : Nat)
  | ready (n nowUs : Nat)
  | returned (ok : Bool)
  deriving DecidableEq

namespace ByteRateLimiter

def withBurst (burst : Nat) : ByteRateLimiter := ⟨max burst 1, 0, 0, 0, []⟩

variable (rate burst : Nat)

def refill (n nowUs last : Nat) : Consuming :=
  if nowUs ≤ last then .ready n nowUs
  else
    let elapsed := nowUs - last
    let add := elapsed * rate / second % 2 ^ 64
    if add = 0 then .ready n nowUs
    else .refilling n nowUs last add (min (add * second / max rate 1 % 2 ^ 64) elapsed)

def machine : Machine ByteRateLimiter Consuming Unit where
  start s
    | .begun _ nowUs => if s.clock ≤ nowUs ∧ nowUs < 2 ^ 64 then some { s with clock := nowUs } else none
    | _ => none
  advance _ s
    | .begun n nowUs => some (s, refill rate n nowUs s.lastUs)
    | .refilling n nowUs last add used =>
      if s.lastUs = last then
        some ({ s with lastUs := (last + used) % 2 ^ 64, credited := s.credited + add }, .crediting n nowUs add)
      else some (s, .ready n nowUs)
    | .crediting n nowUs add =>
      some ({ s with tokens := min (min (s.tokens + add) (2 ^ 64 - 1)) burst }, .ready n nowUs)
    | .ready n nowUs =>
      if n ≤ s.tokens then
        some ({ s with tokens := s.tokens - n, granted := (nowUs, n) :: s.granted }, .returned true)
      else some (s, .returned false)
    | .returned _ => none

def grantedIn (t0 t1 : Nat) (log : List (Nat × Nat)) : Nat :=
  ((log.filter (fun g => t0 ≤ g.1 ∧ g.1 ≤ t1)).map Prod.snd).sum

def credit : Consuming → Nat
  | .begun .. => 0
  | .refilling .. => 0
  | .crediting _ _ add => add
  | .ready .. => 0
  | .returned _ => 0

def pending (calls : Multiset Consuming) : Nat := (calls.map credit).sum

/-- The credit of a call fits its word, and every grant finds no bytes still to be added and less than a byte of time
left. -/
def UpToDate (s : ByteRateLimiter) (rest : Multiset Consuming) : Label Consuming Unit → Prop
  | .start (.begun _ nowUs) => nowUs * rate / second < 2 ^ 64
  | .advance (.ready n nowUs) _ =>
    n ≤ s.tokens → pending rest = 0 ∧ s.lastUs ≤ nowUs ∧ rate * (nowUs - s.lastUs) < second
  | _ => True

def Fits (clock : Nat) : Consuming → Prop
  | .begun _ nowUs => nowUs ≤ clock
  | .refilling _ nowUs last add used =>
    nowUs ≤ clock ∧ last + used ≤ nowUs ∧ add = (nowUs - last) * rate / second ∧ add < 2 ^ 64 ∧ rate * used = second * add
  | .crediting _ nowUs _ => nowUs ≤ clock
  | .ready _ nowUs => nowUs ≤ clock
  | .returned _ => True

/-- Every microsecond up to the last refill is credited once, and every number fits its word. -/
structure Accounted (s : ByteRateLimiter) (calls : Multiset Consuming) : Prop where
  tokens : s.tokens ≤ burst
  last : s.lastUs ≤ s.clock
  clock : s.clock < 2 ^ 64
  worth : s.clock * rate / second < 2 ^ 64
  credited : second * s.credited = rate * s.lastUs
  calls : ∀ call ∈ calls, Fits rate s.clock call

section Accounts

variable {rate burst} {s s' : ByteRateLimiter} {rest : Multiset Consuming} {call call' : Consuming}

theorem Fits.mono {clock clock' : Nat} (h : Fits rate clock call) (hClock : clock ≤ clock') : Fits rate clock' call := by
  cases call with
  | begun n nowUs | crediting n nowUs add | ready n nowUs => exact le_trans h hClock
  | refilling n nowUs last add used => exact ⟨le_trans h.1 hClock, h.2⟩
  | returned ok => trivial

theorem fits_refill (hEven : Even second rate) (hRate : 0 < rate) {n nowUs last clock : Nat} (hNow : nowUs ≤ clock)
    (hClock : clock < 2 ^ 64) (hWorth : clock * rate / second < 2 ^ 64) : Fits rate clock (refill rate n nowUs last) := by
  rw [refill]
  split
  · exact hNow
  next hLater =>
  dsimp only
  have hElapsed : nowUs - last ≤ clock := by omega
  have hAdd : (nowUs - last) * rate / second < 2 ^ 64 :=
    Nat.lt_of_le_of_lt (Nat.div_le_div_right (Nat.mul_le_mul_right _ hElapsed)) hWorth
  rw [mod_eq_of_lt hAdd]
  split
  · exact hNow
  have hExact := @Even.exact second rate (nowUs - last) hEven (by decide) hRate
  have hUsed : (nowUs - last) * rate / second * second / rate ≤ nowUs - last :=
    Nat.div_le_of_le_mul (by rw [Nat.mul_comm rate]; exact Nat.div_mul_le_self _ _)
  rw [max_eq_left hRate, mod_eq_of_lt (by omega), min_eq_left hUsed]
  exact ⟨hNow, by omega, rfl, hAdd, hExact⟩

theorem Accounted.start (h : Accounted rate burst s rest) (hOk : UpToDate rate s rest (.start call))
    (hStart : (machine rate burst).start s call = some s') : Accounted rate burst s' (call ::ₘ rest) := by
  cases call with
  | begun n nowUs =>
    simp only [machine, Option.ite_none_right_eq_some, Option.some.injEq] at hStart
    obtain ⟨⟨hLater, hBound⟩, rfl⟩ := hStart
    refine ⟨h.tokens, le_trans h.last hLater, hBound, hOk, h.credited, fun c hIn => ?_⟩
    obtain rfl | hIn := mem_cons.mp hIn
    · exact le_refl _
    · exact (h.calls c hIn).mono hLater
  | _ => cases hStart

theorem Accounted.advance (hEven : Even second rate) (hRate : 0 < rate) (h : Accounted rate burst s (call ::ₘ rest))
    (hAdvance : (machine rate burst).advance () s call = some (s', call')) : Accounted rate burst s' (call' ::ₘ rest) := by
  have hCall := h.calls call (mem_cons_self _ _)
  have hRest : ∀ c ∈ rest, Fits rate s.clock c := fun c hIn => h.calls c (mem_cons_of_mem hIn)
  have hAll {x : Consuming} (hx : Fits rate s.clock x) : ∀ c ∈ x ::ₘ rest, Fits rate s.clock c := by
    intro c hIn
    obtain rfl | hIn := mem_cons.mp hIn
    · exact hx
    · exact hRest c hIn
  cases call with
  | begun n nowUs =>
    cases hAdvance
    exact ⟨h.tokens, h.last, h.clock, h.worth, h.credited, hAll (fits_refill hEven hRate hCall h.clock h.worth)⟩
  | refilling n nowUs last add used =>
    obtain ⟨hNow, hUsed, hAdd, hFits, hExact⟩ := hCall
    simp only [machine] at hAdvance
    split at hAdvance
    · next hSame =>
      cases hAdvance
      subst hSame
      have hClock := h.clock
      have hSum : (s.lastUs + used) % 2 ^ 64 = s.lastUs + used := mod_eq_of_lt (by omega)
      refine ⟨h.tokens, by simp only [hSum]; omega, h.clock, h.worth, ?_, hAll hNow⟩
      simp only [hSum, mul_add, h.credited, hExact]
    · cases hAdvance
      exact ⟨h.tokens, h.last, h.clock, h.worth, h.credited, hAll hNow⟩
  | crediting n nowUs add =>
    cases hAdvance
    exact ⟨min_le_right _ _, h.last, h.clock, h.worth, h.credited, hAll hCall⟩
  | ready n nowUs =>
    simp only [machine] at hAdvance
    split at hAdvance
    · cases hAdvance
      exact ⟨le_trans (sub_le _ _) h.tokens, h.last, h.clock, h.worth, h.credited, hAll trivial⟩
    · cases hAdvance
      exact ⟨h.tokens, h.last, h.clock, h.worth, h.credited, hAll trivial⟩
  | returned ok => cases hAdvance

/-! ## Worth -/

/-- Millionths of a byte that could have been paid out by `t`, without the cap. -/
def worth (rate t : Nat) (s : ByteRateLimiter) (calls : Multiset Consuming) : ℤ :=
  second * ((s.tokens : ℤ) + pending calls) + rate * ((t : ℤ) - s.lastUs)

/-- What may be granted from `t0` to `t1`, in millionths of a byte. -/
def budget (rate burst t0 t1 : Nat) : ℤ := second * burst + (second - 1) + rate * ((t1 : ℤ) - t0)

/-- The grants of an interval are within their budget, and from the first one on with all that is left. -/
structure Within (rate burst t0 t1 : Nat) (s : ByteRateLimiter) (calls : Multiset Consuming) : Prop where
  granted : (second : ℤ) * grantedIn t0 t1 s.granted ≤ budget rate burst t0 t1
  left : grantedIn t0 t1 s.granted = 0 ∨
    second * (grantedIn t0 t1 s.granted : ℤ) + worth rate t1 s calls ≤ budget rate burst t0 t1

variable {t0 t1 : Nat}

theorem Within.of_le {calls calls' : Multiset Consuming} (h : Within rate burst t0 t1 s calls)
    (hLog : s'.granted = s.granted) (hWorth : worth rate t1 s' calls' ≤ worth rate t1 s calls) :
    Within rate burst t0 t1 s' calls' := by
  refine ⟨hLog ▸ h.granted, ?_⟩
  rw [hLog]
  exact h.left.imp_right fun hLeft => by linarith

@[simp] theorem pending_cons (call : Consuming) (calls : Multiset Consuming) :
    pending (call ::ₘ calls) = credit call + pending calls := by
  rw [pending, map_cons, sum_cons]
  rfl

theorem grantedIn_cons (t0 t1 nowUs n : Nat) (log : List (Nat × Nat)) :
    grantedIn t0 t1 ((nowUs, n) :: log) = (if t0 ≤ nowUs ∧ nowUs ≤ t1 then n else 0) + grantedIn t0 t1 log := by
  by_cases hIn : t0 ≤ nowUs ∧ nowUs ≤ t1 <;> simp [grantedIn, hIn]

theorem credit_refill (n nowUs last : Nat) : credit (refill rate n nowUs last) = 0 := by
  rw [refill]
  split
  · rfl
  · dsimp only
    split <;> rfl

/-- Right before a grant the limiter is worth no more than the budget, right after it not less than nothing. -/
theorem worth_fresh {n nowUs : Nat} (hIn : t0 ≤ nowUs ∧ nowUs ≤ t1) (hTokens : s.tokens ≤ burst)
    (hPending : pending rest = 0) (hLast : s.lastUs ≤ nowUs) (hLeft : rate * (nowUs - s.lastUs) < second)
    (hEnough : n ≤ s.tokens) :
    worth rate t1 s (.ready n nowUs ::ₘ rest) ≤ budget rate burst t0 t1 ∧
      (second : ℤ) * n ≤ worth rate t1 s (.ready n nowUs ::ₘ rest) := by
  have hGap : (rate : ℤ) * ((t1 : ℤ) - nowUs) ≤ rate * ((t1 : ℤ) - t0) :=
    mul_le_mul_of_nonneg_left (by omega) (by omega)
  have hAhead : (0 : ℤ) ≤ rate * ((t1 : ℤ) - s.lastUs) := mul_nonneg (by omega) (by omega)
  have hFull : (second : ℤ) * s.tokens ≤ second * burst := mul_le_mul_of_nonneg_left (by omega) (by omega)
  have hSpent : (second : ℤ) * n ≤ second * s.tokens := mul_le_mul_of_nonneg_left (by omega) (by omega)
  have hByte : (rate : ℤ) * ((nowUs : ℤ) - s.lastUs) ≤ second - 1 := by
    have hCast : ((rate * (nowUs - s.lastUs) : ℕ) : ℤ) = rate * ((nowUs : ℤ) - s.lastUs) := by
      push_cast [hLast]
      ring
    omega
  rw [worth, budget, pending_cons, hPending, credit]
  push_cast
  constructor <;> linarith

theorem Within.same (h : Within rate burst t0 t1 s (call ::ₘ rest)) (hCredit : credit call' = credit call) :
    Within rate burst t0 t1 s (call' ::ₘ rest) :=
  h.of_le rfl (by simp [worth, hCredit])

theorem Within.advance (h : Within rate burst t0 t1 s (call ::ₘ rest))
    (hAccounted : Accounted rate burst s (call ::ₘ rest)) (hOk : UpToDate rate s rest (.advance call ()))
    (hAdvance : (machine rate burst).advance () s call = some (s', call')) :
    Within rate burst t0 t1 s' (call' ::ₘ rest) := by
  have hCall := hAccounted.calls call (mem_cons_self _ _)
  cases call with
  | begun n nowUs =>
    cases hAdvance
    exact h.same (credit_refill ..)
  | refilling n nowUs last add used =>
    obtain ⟨hNow, hUsed, -, -, hExact⟩ := hCall
    simp only [machine] at hAdvance
    split at hAdvance
    · next hSame =>
      cases hAdvance
      subst hSame
      have hClock := hAccounted.clock
      have hSum : (s.lastUs + used) % 2 ^ 64 = s.lastUs + used := mod_eq_of_lt (by omega)
      refine h.of_le rfl (le_of_eq ?_)
      zify at hExact
      simp only [worth, pending_cons, credit, hSum]
      push_cast
      linarith
    · cases hAdvance
      exact h.same rfl
  | crediting n nowUs add =>
    cases hAdvance
    refine h.of_le rfl ?_
    have hAdded : min (min (s.tokens + add) (2 ^ 64 - 1)) burst ≤ s.tokens + add := by omega
    have hSecond : (0 : ℤ) ≤ second := by omega
    have := mul_le_mul_of_nonneg_left (Int.ofNat_le.mpr hAdded) hSecond
    simp only [worth, pending_cons, credit]
    push_cast at this ⊢
    linarith
  | ready n nowUs =>
    simp only [machine] at hAdvance
    split at hAdvance
    · next hEnough =>
      cases hAdvance
      have hLess : ((s.tokens - n : ℕ) : ℤ) = s.tokens - n := by omega
      have hPaid : worth rate t1 { s with tokens := s.tokens - n, granted := (nowUs, n) :: s.granted }
          (.returned true ::ₘ rest) + second * n = worth rate t1 s (.ready n nowUs ::ₘ rest) := by
        simp only [worth, pending_cons, credit, hLess]
        push_cast
        ring
      by_cases hIn : t0 ≤ nowUs ∧ nowUs ≤ t1
      · obtain ⟨hPending, hLast, hLeft⟩ := hOk hEnough
        have hFresh := worth_fresh hIn hAccounted.tokens hPending hLast hLeft hEnough
        have hBefore : second * (grantedIn t0 t1 s.granted : ℤ) + worth rate t1 s (.ready n nowUs ::ₘ rest) ≤
            budget rate burst t0 t1 := by
          obtain hNone | hLeft := h.left
          · rw [hNone]
            push_cast
            linarith
          · exact hLeft
        constructor <;> rw [grantedIn_cons, if_pos hIn] <;> push_cast
        · linarith
        · exact .inr (by linarith)
      · have hSame : grantedIn t0 t1 ((nowUs, n) :: s.granted) = grantedIn t0 t1 s.granted := by
          rw [grantedIn_cons, if_neg hIn, zero_add]
        have hCost : (0 : ℤ) ≤ second * n := by positivity
        constructor <;> rw [hSame]
        · exact h.granted
        · exact h.left.imp_right fun hLeft => by linarith
    · cases hAdvance
      exact h.same rfl
  | returned ok => cases hAdvance

end Accounts

structure Kept (s : ByteRateLimiter) (calls : Multiset Consuming) : Prop where
  accounted : Accounted rate burst s calls
  within : ∀ t0 t1, t0 ≤ t1 → Within rate burst t0 t1 s calls

def sixCalls : List (Machine.Choice Consuming Unit) :=
  [.start (.begun 2 0), .advance 0 (), .advance 0 ()] ++
    (List.replicate 5 [.start (.begun 1 1), .advance 0 (), .advance 0 (), .advance 0 (), .advance 0 ()]).flatten

/-- At 1500000 bytes per second a microsecond is worth a byte, and the byte no whole microsecond. -/
theorem microsecond_credited_again : ∃ (s : ByteRateLimiter) (calls : Multiset Consuming),
    (machine 1500000 2).Reaches (fun _ _ _ => True) (withBurst 2, 0) (s, calls) ∧
      2 + (1500000 * (1 - 1) + 999999) / 1000000 < grantedIn 1 1 s.granted ∧ s.credited = 5 ∧ s.lastUs = 0 := by
  obtain ⟨s, calls, hReaches, hSeen⟩ := (machine 1500000 2).exists_reaches_of_exec
    (fun _ _ _ => True) (withBurst 2, []) sixCalls
    (fun s _ => 2 + (1500000 * (1 - 1) + 999999) / 1000000 < grantedIn 1 1 s.granted ∧
      s.credited = 5 ∧ s.lastUs = 0) (by decide +kernel)
  exact ⟨s, calls, hReaches, hSeen⟩

/-- At an even rate, on every run that keeps the limiter up to date. -/
theorem byte_rate_exact (rate burst : UInt64) (hRate : 1 ≤ rate.toNat) (hBurst : 1 ≤ burst.toNat)
    (hEven : Even second rate.toNat) (s : ByteRateLimiter) (calls : Multiset Consuming)
    (h : (machine rate.toNat burst.toNat).Reaches (UpToDate rate.toNat) (withBurst burst.toNat, 0) (s, calls)) :
    Accounted rate.toNat burst.toNat s calls ∧ ∀ t0 t1, t0 ≤ t1 →
      grantedIn t0 t1 s.granted ≤ burst.toNat + (rate.toNat * (t1 - t0) + 999999) / 1000000 := by
  have hKept : Kept rate.toNat burst.toNat s calls := by
    refine h.invariant (Kept rate.toNat burst.toNat) ?_ ?_ ?_
    · intro s calls call s' hKept hOk hStart
      refine ⟨hKept.accounted.start hOk hStart, fun t0 t1 hOrder => (hKept.within t0 t1 hOrder).of_le ?_ ?_⟩
      all_goals
        cases call with
        | begun n nowUs =>
          simp only [machine, Option.ite_none_right_eq_some, Option.some.injEq] at hStart
          obtain ⟨-, rfl⟩ := hStart
          first
          | rfl
          | simp [worth, credit]
        | _ => cases hStart
    · intro s rest call env s' call' hKept hOk hAdvance
      exact ⟨hKept.accounted.advance hEven hRate hAdvance, fun t0 t1 hOrder =>
        (hKept.within t0 t1 hOrder).advance hKept.accounted hOk hAdvance⟩
    · refine ⟨⟨?_, Nat.le_refl _, Nat.two_pow_pos 64, ?_, ?_, fun c hIn => absurd hIn (notMem_zero c)⟩,
        fun t0 t1 hOrder => ⟨?_, .inl rfl⟩⟩
      · rw [withBurst, Nat.max_eq_left hBurst]
      · rw [withBurst, Nat.zero_mul, Nat.zero_div]
        decide
      · rfl
      · have hAhead : (0 : ℤ) ≤ rate.toNat * ((t1 : ℤ) - t0) := mul_nonneg (by omega) (by omega)
        have hFull : (0 : ℤ) ≤ second * burst.toNat := mul_nonneg (by omega) (by omega)
        have hByte : (0 : ℤ) ≤ second - 1 := by decide
        rw [budget, show grantedIn t0 t1 (withBurst burst.toNat).granted = 0 from rfl]
        push_cast
        linarith
  refine ⟨hKept.accounted, fun t0 t1 hOrder => ?_⟩
  have hBound := (hKept.within t0 t1 hOrder).granted
  have hGap : ((t1 : ℤ) - t0) = ((t1 - t0 : ℕ) : ℤ) := by omega
  rw [budget, hGap, second] at hBound
  have hNat : 1000000 * grantedIn t0 t1 s.granted ≤ 1000000 * burst.toNat + 999999 + rate.toNat * (t1 - t0) := by
    zify
    norm_num at hBound
    linarith
  omega

theorem byte_rate_exact_once : ∃ (s : ByteRateLimiter) (calls : Multiset Consuming),
    (machine 1000000 2).Reaches (UpToDate 1000000) (withBurst 2, 0) (s, calls) ∧ s.granted = [(0, 1)] ∧
      grantedIn 0 5 s.granted ≤ 2 + (1000000 * (5 - 0) + 999999) / 1000000 := by
  have hEnter : (machine 1000000 2).Step (UpToDate 1000000) (withBurst 2, 0) (withBurst 2, .begun 1 0 ::ₘ 0) :=
    .start (show 0 * 1000000 / second < 2 ^ 64 by decide) rfl
  have hLoad : (machine 1000000 2).Step (UpToDate 1000000) (withBurst 2, .begun 1 0 ::ₘ 0)
      (withBurst 2, .ready 1 0 ::ₘ 0) := @Machine.Step.advance _ _ _ _ _ _ _ _ _ _ () trivial rfl
  have hTake : (machine 1000000 2).Step (UpToDate 1000000) (withBurst 2, .ready 1 0 ::ₘ 0)
      ({ withBurst 2 with tokens := 1, granted := [(0, 1)] }, .returned true ::ₘ 0) :=
    @Machine.Step.advance _ _ _ _ _ _ _ _ _ _ () (fun _ => ⟨rfl, Nat.le_refl _, by decide⟩) rfl
  have hReaches := Relation.ReflTransGen.tail (.tail (.single hEnter) hLoad) hTake
  exact ⟨_, _, hReaches, rfl, (byte_rate_exact 1000000 2 (by decide) (by decide) (.inl (by decide)) _ _
    hReaches).2 0 5 (by decide)⟩

end ByteRateLimiter

end Turna.Qos
