import Mathlib.Algebra.BigOperators.Group.Multiset.Defs
import Mathlib.Logic.Relation

/-! # Interleaving machines

Calls in flight act on a shared state one atomic step at a time, in any order. A run may be
restricted by a condition on the shared state, the other calls and the step about to be taken.
-/

namespace Turna.Lib

universe u v w

variable {S : Type u} {C : Type v} {E : Type w}

inductive Label (C : Type v) (E : Type w) where
  | start (call : C)
  | advance (call : C) (env : E)

structure Machine (S : Type u) (C : Type v) (E : Type w) where
  start : S → C → Option S
  advance : E → S → C → Option (S × C)

namespace Machine

variable (m : Machine S C E) (ok : S → Multiset C → Label C E → Prop)

/-- The condition sees the calls other than the acting one. -/
inductive Step : S × Multiset C → S × Multiset C → Prop where
  | start {s s' : S} {calls : Multiset C} {call : C} (hOk : ok s calls (.start call))
      (h : m.start s call = some s') : Step (s, calls) (s', call ::ₘ calls)
  | advance {s s' : S} {rest : Multiset C} {call call' : C} {env : E}
      (hOk : ok s rest (.advance call env)) (h : m.advance env s call = some (s', call')) :
      Step (s, call ::ₘ rest) (s', call' ::ₘ rest)

def Reaches : S × Multiset C → S × Multiset C → Prop := Relation.ReflTransGen (m.Step ok)

/-- Invariant rule: what entering a call and one atomic step preserve holds along every run. -/
theorem Reaches.invariant {m : Machine S C E} {ok : S → Multiset C → Label C E → Prop} (I : S → Multiset C → Prop)
    (hStart : ∀ s calls call s', I s calls → ok s calls (.start call) →
      m.start s call = some s' → I s' (call ::ₘ calls))
    (hAdvance : ∀ s rest call env s' call', I s (call ::ₘ rest) → ok s rest (.advance call env) →
      m.advance env s call = some (s', call') → I s' (call' ::ₘ rest))
    {cfg cfg' : S × Multiset C} (h : m.Reaches ok cfg cfg') (hInit : I cfg.1 cfg.2) : I cfg'.1 cfg'.2 := by
  induction h with
  | refl => exact hInit
  | tail _ hStep ih =>
    cases hStep with
    | start hOk h => exact hStart _ _ _ _ ih hOk h
    | advance hOk h => exact hAdvance _ _ _ _ _ _ ih hOk h

inductive Choice (C : Type v) (E : Type w) where
  | start (call : C)
  | advance (index : Nat) (env : E)

variable [∀ s calls l, Decidable (ok s calls l)]

def next (cfg : S × List C) : Choice C E → Option (S × List C)
  | .start call =>
    if ok cfg.1 cfg.2 (.start call) then (m.start cfg.1 call).map fun s => (s, call :: cfg.2) else none
  | .advance index env =>
    match cfg.2[index]? with
    | none => none
    | some call =>
      if ok cfg.1 (cfg.2.eraseIdx index) (.advance call env) then
        (m.advance env cfg.1 call).map fun r => (r.1, cfg.2.set index r.2)
      else none

def exec (cfg : S × List C) : List (Choice C E) → Option (S × List C)
  | [] => some cfg
  | choice :: rest =>
    match next m ok cfg choice with
    | none => none
    | some cfg' => exec cfg' rest

theorem coe_eq_cons_eraseIdx {l : List C} {index : Nat} {call : C} (h : l[index]? = some call) :
    (l : Multiset C) = call ::ₘ (l.eraseIdx index : List C) := by
  obtain ⟨hIndex, rfl⟩ := List.getElem?_eq_some_iff.mp h
  exact Multiset.coe_eq_coe.mpr (List.getElem_cons_eraseIdx_perm hIndex).symm

theorem step_of_next {cfg cfg' : S × List C} {choice : Choice C E}
    (h : m.next ok cfg choice = some cfg') : m.Step ok (cfg.1, cfg.2) (cfg'.1, cfg'.2) := by
  cases choice with
  | start call =>
    rw [next] at h
    split at h
    · next hOk =>
      obtain ⟨s, hs, rfl⟩ := Option.map_eq_some_iff.mp h
      exact .start hOk hs
    · cases h
  | advance index env =>
    rw [next] at h
    split at h
    · cases h
    next call hCall =>
    split at h
    · next hOk =>
      obtain ⟨⟨s, call'⟩, hs, rfl⟩ := Option.map_eq_some_iff.mp h
      obtain ⟨hIndex, -⟩ := List.getElem?_eq_some_iff.mp hCall
      have hNew : (cfg.2.set index call')[index]? = some call' := List.getElem?_set_self hIndex
      rw [coe_eq_cons_eraseIdx hCall, coe_eq_cons_eraseIdx hNew, List.eraseIdx_set_eq]
      exact .advance hOk hs
    · cases h

theorem reaches_of_exec {cfg cfg' : S × List C} {choices : List (Choice C E)}
    (h : m.exec ok cfg choices = some cfg') : m.Reaches ok (cfg.1, cfg.2) (cfg'.1, cfg'.2) := by
  induction choices generalizing cfg with
  | nil =>
    cases h
    exact .refl
  | cons choice rest ih =>
    rw [exec] at h
    split at h
    · cases h
    · next cfg₁ hNext => exact .head (step_of_next m ok hNext) (ih h)

theorem exists_reaches_of_exec (cfg : S × List C) (choices : List (Choice C E)) (p : S → List C → Prop)
    [∀ s calls, Decidable (p s calls)] (h : (m.exec ok cfg choices).any (fun cfg => p cfg.1 cfg.2) = true) :
    ∃ (s : S) (calls : List C), m.Reaches ok (cfg.1, cfg.2) (s, calls) ∧ p s calls := by
  cases hExec : m.exec ok cfg choices with
  | none =>
    rw [hExec] at h
    cases h
  | some cfg' =>
    rw [hExec] at h
    exact ⟨cfg'.1, cfg'.2, reaches_of_exec m ok hExec, of_decide_eq_true h⟩

end Machine

end Turna.Lib
