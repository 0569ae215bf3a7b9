import Mathlib.Algebra.Order.Ring.Int
import Mathlib.Data.Nat.Cast.Basic

/-! # Runs of a sequential system

Operations are applied one after another, each allowed by a condition on the state it meets.
-/

namespace Turna.Lib.Trace
open List

universe u v

variable {S : Type u} {O : Type v} (apply : S → O → S)

def run (s : S) (ops : List O) : S := ops.foldl apply s

def Allowed (ok : S → O → Prop) : S → List O → Prop
  | _, [] => True
  | s, op :: ops => ok s op ∧ Allowed ok (apply s op) ops

def total (weight : S → O → ℕ) : S → List O → ℕ
  | _, [] => 0
  | s, op :: ops => weight s op + total weight (apply s op) ops

variable {apply} {ok : S → O → Prop}

variable {s : S} {ops : List O} {weight : S → O → ℕ}

theorem run_invariant (I : S → Prop) (hStep : ∀ s op, I s → I (apply s op)) (ops : List O) (hInit : I s) :
    I (run apply s ops) := by
  induction ops generalizing s with
  | nil => exact hInit
  | cons op ops ih => exact ih (hStep s op hInit)

theorem Allowed.invariant (I : S → Prop) (hStep : ∀ s op, I s → ok s op → I (apply s op))
    (h : Allowed apply ok s ops) (hInit : I s) : I (run apply s ops) := by
  induction ops generalizing s with
  | nil => exact hInit
  | cons op ops ih => exact ih h.2 (hStep s op hInit h.1)

/-- Invariant rule with a budget: a step is looked at only while the run stays within it. -/
theorem Allowed.invariant_within (weight : S → O → ℕ) (budget : ℕ) (I : ℕ → S → Prop)
    (hStep : ∀ n s op, I n s → ok s op → n + weight s op ≤ budget → I (n + weight s op) (apply s op))
    (h : Allowed apply ok s ops) {n : ℕ} (hInit : I n s)
    (hBudget : n + total apply weight s ops ≤ budget) :
    I (n + total apply weight s ops) (run apply s ops) := by
  induction ops generalizing s n with
  | nil => exact hInit
  | cons op ops ih =>
    rw [total] at hBudget ⊢
    rw [← Nat.add_assoc] at hBudget ⊢
    refine ih h.2 (hStep n s op hInit h.1 ?_) hBudget
    exact Nat.le_trans (Nat.le_add_right _ _) hBudget

section

variable {I : S → Prop} (hStep : ∀ s op, I s → ok s op → I (apply s op))
include hStep

theorem Allowed.spent_le {Φ : S → ℤ} {k : ℕ} (hSpend : ∀ s op, I s → ok s op → Φ (apply s op) + k * weight s op ≤ Φ s)
    (hGrant : ∀ s op, I s → ok s op → 0 < weight s op → 0 ≤ Φ (apply s op)) (h : Allowed apply ok s ops) (hInit : I s) :
    total apply weight s ops = 0 ∨ (k * total apply weight s ops : ℤ) ≤ Φ s := by
  induction ops generalizing s with
  | nil => exact .inl rfl
  | cons op ops ih =>
    have hNow := hSpend s op hInit h.1
    rw [total]
    push_cast
    rw [mul_add]
    obtain hNone | hLater := ih h.2 (hStep s op hInit h.1)
    · rw [hNone]
      obtain hZero | hPos := Nat.eq_zero_or_pos (weight s op)
      · exact .inl (by omega)
      have hLeft := hGrant s op hInit h.1 hPos
      right
      push_cast
      omega
    · right
      omega

/-- Every operation is paid from the potential, which is not negative right after an operation that counts. -/
theorem Allowed.total_le {Φ : S → ℤ} {k : ℕ} {B : ℤ}
    (hSpend : ∀ s op, I s → ok s op → Φ (apply s op) + k * weight s op ≤ Φ s)
    (hGrant : ∀ s op, I s → ok s op → 0 < weight s op → 0 ≤ Φ (apply s op) ∧ Φ (apply s op) + k * weight s op ≤ B)
    (hBudget : 0 ≤ B) (h : Allowed apply ok s ops) (hInit : I s) : (k * total apply weight s ops : ℤ) ≤ B := by
  induction ops generalizing s with
  | nil => simpa [total] using hBudget
  | cons op ops ih =>
    have hLater := ih h.2 (hStep s op hInit h.1)
    rw [total]
    push_cast
    rw [mul_add]
    obtain hZero | hPos := Nat.eq_zero_or_pos (weight s op)
    · rw [hZero]
      push_cast
      omega
    obtain ⟨hLeft, hWithin⟩ := hGrant s op hInit h.1 hPos
    have hSpent := h.2.spent_le hStep hSpend (fun s op hI hOk hPos => (hGrant s op hI hOk hPos).1)
      (hStep s op hInit h.1)
    obtain hNone | hRest := hSpent
    · rw [hNone]
      push_cast
      omega
    · omega

theorem Allowed.total_mono {weight' : S → O → ℕ} (hLe : ∀ s op, I s → ok s op → weight s op ≤ weight' s op)
    (h : Allowed apply ok s ops) (hInit : I s) : total apply weight s ops ≤ total apply weight' s ops := by
  induction ops generalizing s with
  | nil => exact Nat.le_refl _
  | cons op ops ih => exact Nat.add_le_add (hLe s op hInit h.1) (ih h.2 (hStep s op hInit h.1))

end

variable {ok' : S → O → Prop}

theorem Allowed.mono (hOk : ∀ s op, ok s op → ok' s op) (h : Allowed apply ok s ops) : Allowed apply ok' s ops := by
  induction ops generalizing s with
  | nil => trivial
  | cons op ops ih => exact ⟨hOk s op h.1, ih h.2⟩

theorem Allowed.imp {I : S → Prop} (hStep : ∀ s op, I s → ok s op → I (apply s op))
    (hOk : ∀ s op, I s → ok s op → ok' s op) (h : Allowed apply ok s ops) (hInit : I s) : Allowed apply ok' s ops := by
  induction ops generalizing s with
  | nil => trivial
  | cons op ops ih => exact ⟨hOk s op hInit h.1, ih h.2 (hStep s op hInit h.1)⟩

theorem Allowed.and (h : Allowed apply ok s ops)
    (h' : Allowed apply ok' s ops) : Allowed apply (fun s op => ok s op ∧ ok' s op) s ops := by
  induction ops generalizing s with
  | nil => trivial
  | cons op ops ih => exact ⟨⟨h.1, h'.1⟩, ih h.2 h'.2⟩

theorem allowed_append {ops' : List O} :
    Allowed apply ok s (ops ++ ops') ↔ Allowed apply ok s ops ∧ Allowed apply ok (run apply s ops) ops' := by
  induction ops generalizing s with
  | nil => simp [Allowed, run]
  | cons op ops ih => exact (and_congr_right fun _ => ih).trans and_assoc.symm

theorem Allowed.append {ops' : List O} (h : Allowed apply ok s ops)
    (h' : Allowed apply ok (run apply s ops) ops') : Allowed apply ok s (ops ++ ops') :=
  allowed_append.mpr ⟨h, h'⟩

theorem Allowed.of_prefix {pre : List O} (h : Allowed apply ok s ops) (hPre : pre <+: ops) :
    Allowed apply ok s pre := by
  obtain ⟨rest, rfl⟩ := hPre
  exact (allowed_append.mp h).1

/-- If good operations keep an invariant that implies the property, and the property shows whether one was good. -/
theorem Allowed.prefixes_iff {I P : S → Prop} {good : S → O → Prop} (hImp : ∀ s, I s → P s)
    (hShows : ∀ s op, I s → ok s op → P (apply s op) → good s op)
    (hKeeps : ∀ s op, I s → ok s op → good s op → I (apply s op)) (h : Allowed apply ok s ops)
    (hInit : I s) : (∀ pre, pre <+: ops → P (run apply s pre)) ↔ Allowed apply good s ops := by
  induction ops generalizing s with
  | nil =>
    refine iff_of_true (fun pre hPre => ?_) trivial
    rw [prefix_nil.mp hPre]
    exact hImp s hInit
  | cons op ops ih =>
    constructor
    · intro hAll
      have hGood := hShows s op hInit h.1 (hAll [op] (cons_prefix_cons.mpr ⟨rfl, nil_prefix⟩))
      refine ⟨hGood, (ih h.2 (hKeeps s op hInit h.1 hGood)).mp fun pre hPre => ?_⟩
      exact hAll (op :: pre) (cons_prefix_cons.mpr ⟨rfl, hPre⟩)
    · rintro ⟨hGood, hLater⟩ pre hPre
      cases pre with
      | nil => exact hImp s hInit
      | cons op' pre =>
        obtain ⟨rfl, hRest⟩ := cons_prefix_cons.mp hPre
        exact (ih h.2 (hKeeps s op' hInit h.1 hGood)).mpr hLater pre hRest

theorem allowed_iff_forall {good : O → Prop} {s : S} {ops : List O} :
    Allowed apply (fun _ op => good op) s ops ↔ ∀ op ∈ ops, good op := by
  induction ops generalizing s with
  | nil => exact iff_of_true trivial nofun
  | cons op ops ih => rw [Allowed, ih, forall_mem_cons]

theorem run_append (s : S) (ops ops' : List O) :
    run apply s (ops ++ ops') = run apply (run apply s ops) ops' := foldl_append

end Turna.Lib.Trace
