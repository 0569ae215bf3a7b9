import Mathlib.Order.Compare

/-! # The largest element of a list under a comparison -/

namespace Turna.Lib
open List

universe u

variable {α : Type u} (cmp : α → α → Ordering)

def maxBy : List α → Option α
  | [] => none
  | a :: rest => some (rest.foldl (fun best x => if cmp best x = .gt then best else x) a)

variable {cmp}

theorem foldl_max_mem {rest : List α} {a : α} :
    rest.foldl (fun best x => if cmp best x = .gt then best else x) a ∈ a :: rest := by
  induction rest generalizing a with
  | nil => exact mem_singleton_self a
  | cons x rest ih =>
    rw [foldl_cons]
    split
    · have h := ih (a := a)
      rw [mem_cons] at h ⊢
      exact h.imp id (mem_cons_of_mem x)
    · exact mem_cons_of_mem a ih

theorem le_foldl_max [Std.TransCmp cmp] {rest : List α} {a : α} :
    ∀ x ∈ a :: rest, (cmp x (rest.foldl (fun best x => if cmp best x = .gt then best else x) a)).isLE := by
  induction rest generalizing a with
  | nil =>
    intro x hx
    rw [mem_singleton.mp hx, foldl_nil]
    exact Std.ReflCmp.isLE_rfl
  | cons y rest ih =>
    intro x hx
    rw [foldl_cons]
    -- whichever of the first two is dropped lies below the other
    split
    · next hGt =>
      have hBelow : (cmp y a).isLE := by
        rw [Std.OrientedCmp.gt_iff_lt.mp hGt]
        rfl
      simp only [mem_cons] at hx
      rcases hx with rfl | rfl | hx
      · exact ih x mem_cons_self
      · exact Std.TransCmp.isLE_trans hBelow (ih a mem_cons_self)
      · exact ih x (mem_cons_of_mem a hx)
    · next hNotGt =>
      have hBelow : (cmp a y).isLE := by
        revert hNotGt
        cases cmp a y <;> simp
      rcases mem_cons.mp hx with rfl | hx
      · exact Std.TransCmp.isLE_trans hBelow (ih y mem_cons_self)
      · exact ih x hx

theorem mem_of_maxBy {l : List α} {b : α} (h : maxBy cmp l = some b) : b ∈ l := by
  cases l with
  | nil => cases h
  | cons a rest =>
    cases h
    exact foldl_max_mem

theorem le_of_maxBy [Std.TransCmp cmp] {l : List α} {b x : α} (h : maxBy cmp l = some b) (hx : x ∈ l) :
    (cmp x b).isLE := by
  cases l with
  | nil => cases h
  | cons a rest =>
    cases h
    exact le_foldl_max x hx

@[simp] theorem maxBy_eq_none {l : List α} : maxBy cmp l = none ↔ l = [] := by
  cases l <;> simp [maxBy]

variable [Std.TransCmp cmp] {l l' : List α}

/-- If elements that compare equal are equal. -/
theorem maxBy_of_subset {b : α} (h : maxBy cmp l = some b) (hSub : l' ⊆ l) (hb : b ∈ l')
    (hEq : ∀ x ∈ l, ∀ y ∈ l, cmp x y = .eq → x = y) : maxBy cmp l' = some b := by
  cases h' : maxBy cmp l' with
  | none => simp [maxBy_eq_none.mp h'] at hb
  | some b' =>
    have hb' := hSub (mem_of_maxBy h')
    have hAnti := Std.OrientedCmp.isLE_antisymm (le_of_maxBy h' hb) (le_of_maxBy h hb')
    rw [hEq b (hSub hb) b' hb' hAnti]

theorem maxBy_congr (hSame : ∀ x, x ∈ l ↔ x ∈ l') (hEq : ∀ x ∈ l, ∀ y ∈ l, cmp x y = .eq → x = y) :
    maxBy cmp l = maxBy cmp l' := by
  cases h : maxBy cmp l with
  | none =>
    have hNil : l' = [] := by
      simp [eq_nil_iff_forall_not_mem, ← hSame, maxBy_eq_none.mp h]
    rw [hNil]
    rfl
  | some b =>
    have hb := (hSame b).mp (mem_of_maxBy h)
    rw [maxBy_of_subset h (fun x hx => (hSame x).mpr hx) hb hEq]

end Turna.Lib
