import Mathlib.Data.Nat.Notation

/-! # Programs over a shared service

A program calls a service whose state others change as well. It is judged in rely-guarantee style:
between two calls the others do what the program relies on, and each of its own calls does what it
guarantees. A program that stops before a call has done what its earlier calls did.
-/

namespace Turna.Lib

universe u v

structure Service where
  Call : Type
  Answer : Call → Type

inductive Prog (F : Service) (α : Type) where
  | done (a : α)
  | call (c : F.Call) (next : F.Answer c → Prog F α)

namespace Prog

variable {F : Service} {α β : Type} {S : Type u} {E : Type v}

protected def bind (p : Prog F α) (f : α → Prog F β) : Prog F β :=
  match p with
  | .done a => f a
  | .call c next => .call c fun answer => (next answer).bind f

instance : Monad (Prog F) where
  pure := .done
  bind := Prog.bind

def ask (c : F.Call) : Prog F (F.Answer c) := .call c .done

/-- The program run alone to its end, with one input from the surroundings per call. -/
def run (perform : E → S → (c : F.Call) → F.Answer c × S) : Prog F α → (ℕ → E) → S → α × S
  | .done a, _, s => (a, s)
  | .call c next, envs, s =>
    run perform (next (perform (envs 0) s c).1) (fun n => envs (n + 1)) (perform (envs 0) s c).2

end Prog

structure Discipline (F : Service) (S : Type u) (E : Type v) where
  perform : E → S → (c : F.Call) → F.Answer c × S
  ok : S → F.Call → E → Prop
  inv : S → Prop
  rely : S → S → Prop
  guar : S → S → Prop
  rely_refl : ∀ s, rely s s
  rely_trans : ∀ {s₁ s₂ s₃}, rely s₁ s₂ → rely s₂ s₃ → rely s₁ s₃

namespace Prog

variable {F : Service} {α β : Type} {S : Type u} {E : Type v} {d : Discipline F S E}

/-- The program keeps the discipline, and its result meets the postcondition as long as the others do
what it relies on. -/
def Meets (d : Discipline F S E) (post : α → S → Prop) : Prog F α → S → Prop
  | .done a, s => ∀ s', d.rely s s' → d.inv s' → post a s'
  | .call c next, s => ∀ s', d.rely s s' → d.inv s' → ∀ env, d.ok s' c env →
    d.inv (d.perform env s' c).2 ∧ d.guar s' (d.perform env s' c).2 ∧
      Meets d post (next (d.perform env s' c).1) (d.perform env s' c).2

variable {post post' : α → S → Prop} {p : Prog F α} {s s' : S}

theorem Meets.stable (h : p.Meets d post s) (hRely : d.rely s s') : p.Meets d post s' := by
  cases p with
  | done a | call c next => exact fun s'' hRely' => h s'' (d.rely_trans hRely hRely')

theorem Meets.of_rely (h : ∀ s', d.rely s s' → d.inv s' → p.Meets d post s') : p.Meets d post s := by
  cases p with
  | done a | call c next => exact fun s' hRely hInv => h s' hRely hInv s' (d.rely_refl s') hInv

theorem Meets.mono (h : p.Meets d post s) (hPost : ∀ a s, d.inv s → post a s → post' a s) : p.Meets d post' s := by
  induction p generalizing s with
  | done a => exact fun s' hRely hInv => hPost a s' hInv (h s' hRely hInv)
  | call c next ih =>
    intro s' hRely hInv env hOk
    obtain ⟨hInv', hGuar, hNext⟩ := h s' hRely hInv env hOk
    exact ⟨hInv', hGuar, ih _ hNext⟩

theorem Meets.bind {f : α → Prog F β} {post : β → S → Prop} (h : p.Meets d (fun a s => (f a).Meets d post s) s) :
    (p >>= f).Meets d post s := by
  induction p generalizing s with
  | done a => exact .of_rely h
  | call c next ih =>
    intro s' hRely hInv env hOk
    obtain ⟨hInv', hGuar, hNext⟩ := h s' hRely hInv env hOk
    exact ⟨hInv', hGuar, ih _ hNext⟩

def Within (d : Discipline F S E) : Prog F α → (ℕ → E) → S → Prop
  | .done _, _, _ => True
  | .call c next, envs, s => d.ok s c (envs 0) ∧
    Within d (next (d.perform (envs 0) s c).1) (fun n => envs (n + 1)) (d.perform (envs 0) s c).2

theorem Meets.run (h : p.Meets d post s) (hInv : d.inv s) {envs : ℕ → E} (hWithin : p.Within d envs s) :
    post (p.run d.perform envs s).1 (p.run d.perform envs s).2 := by
  induction p generalizing s envs with
  | done a => exact h s (d.rely_refl s) hInv
  | call c next ih =>
    obtain ⟨hInv', -, hNext⟩ := h s (d.rely_refl s) hInv (envs 0) hWithin.1
    exact ih _ hNext hInv' hWithin.2

theorem Meets.within (h : p.Meets d post s) (hInv : d.inv s) (steady : S → Prop) (hStart : steady s)
    (hSteady : ∀ {s s'}, steady s → d.guar s s' → steady s') {envs : ℕ → E}
    (hOk : ∀ n s c, steady s → d.ok s c (envs n)) :
    p.Within d envs s ∧ steady (p.run d.perform envs s).2 := by
  induction p generalizing s envs with
  | done a => exact ⟨trivial, hStart⟩
  | call c next ih =>
    obtain ⟨hInv', hGuar, hNext⟩ := h s (d.rely_refl s) hInv (envs 0) (hOk 0 s c hStart)
    obtain ⟨hWithin, hEnd⟩ := ih _ hNext hInv' (hSteady hStart hGuar) fun n => hOk (n + 1)
    exact ⟨⟨hOk 0 s c hStart, hWithin⟩, hEnd⟩

end Prog

/-! ## Programs with no one else around -/

def Discipline.alone {F : Service} {S : Type u} {E : Type v} (d : Discipline F S E) : Discipline F S E :=
  { d with
    rely := Eq
    rely_refl := fun _ => rfl
    rely_trans := Eq.trans }

namespace Prog

variable {F : Service} {α β : Type} {S : Type u} {E : Type v} {d : Discipline F S E} {post : α → S → Prop}
  {p : Prog F α} {s : S} {kind : F.Call → Prop}

theorem Meets.alone (h : p.Meets d post s) : p.Meets d.alone post s := by
  induction p generalizing s with
  | done a =>
    rintro s' rfl hInv
    exact h s (d.rely_refl s) hInv
  | call c next ih =>
    rintro s' rfl hInv env hOk
    obtain ⟨hInv', hGuar, hNext⟩ := h s (d.rely_refl s) hInv env hOk
    exact ⟨hInv', hGuar, ih _ hNext⟩

def Only (kind : F.Call → Prop) : Prog F α → Prop
  | .done _ => True
  | .call c next => kind c ∧ ∀ answer, Only kind (next answer)

theorem Meets.keeps {kept : S → Prop} (h : p.Meets d.alone post s) (hOnly : p.Only kind)
    (hKeeps : ∀ env s c, kind c → kept s → kept (d.perform env s c).2) (hStart : kept s) :
    p.Meets d.alone (fun a s => post a s ∧ kept s) s := by
  induction p generalizing s with
  | done a =>
    rintro s' rfl hInv
    exact ⟨h s rfl hInv, hStart⟩
  | call c next ih =>
    rintro s' rfl hInv env hOk
    obtain ⟨hInv', hGuar, hNext⟩ := h s rfl hInv env hOk
    exact ⟨hInv', hGuar, ih _ hNext (hOnly.2 _) (hKeeps env s c hOnly.1 hStart)⟩

theorem Meets.along {kept : S → Prop} (h : p.Meets d.alone post s)
    (hKeeps : ∀ {s s'}, kept s → d.guar s s' → kept s') (hStart : kept s) :
    p.Meets d.alone (fun a s => post a s ∧ kept s) s := by
  induction p generalizing s with
  | done a =>
    rintro s' rfl hInv
    exact ⟨h s rfl hInv, hStart⟩
  | call c next ih =>
    rintro s' rfl hInv env hOk
    obtain ⟨hInv', hGuar, hNext⟩ := h s rfl hInv env hOk
    exact ⟨hInv', hGuar, ih _ hNext (hKeeps hStart hGuar)⟩

end Prog

end Turna.Lib
