import Mathlib.Data.List.Basic

/-! # Read guards of one thread

A concurrent map is cut into shards, each behind a read–write lock. What a lookup or an iteration returns holds a
read guard on its shard until it is dropped. A thread that asks for the write lock of a shard on which it holds a
guard itself waits for ever.
-/

namespace Turna.Lib

/-- One thread on a state `S` with the shards it holds read guards on. The error is the shard it waits for for ever.
-/
abbrev Guarded (G S : Type) := StateT (S × List G) (Except G)

namespace Guarded
open List

variable {G S K V α : Type}

def hold (g : G) : Guarded G S Unit := fun (s, held) => .ok ((), s, g :: held)

def release : Guarded G S Unit := fun (s, _) => .ok ((), s, [])

def update (f : S → S) : Guarded G S Unit := fun (s, held) => .ok ((), f s, held)

variable [DecidableEq G]

def drop (g : Option G) : Guarded G S Unit := fun (s, held) => .ok ((), s, g.elim held held.erase)

def write (g : G) (f : S → S) : Guarded G S Unit :=
  fun (s, held) => if g ∈ held then .error g else .ok ((), f s, held)

def updateUnder (g : Option G) (f : S → S) : Guarded G S Unit :=
  match g with
  | none => update f
  | some g => write g f

def updateAll {ι : Type} (lock : ι → Option G) (f : ι → S → S) : List ι → Guarded G S Unit
  | [] => pure ()
  | i :: items => do
    updateUnder (lock i) (f i)
    updateAll lock f items

/-- The iterator holds a guard on the shard it is in, and the item found shares it. An exhausted iterator still holds
the guard of the last shard. -/
def find (p : V → Bool) : List (G × List (K × V)) → Option G → Guarded G S (Option (K × V))
  | [], _ => pure none
  | (g, entries) :: rest, current => do
    hold g
    drop current
    match entries.find? (fun e => p e.2) with
    | some e => pure (some e)
    | none => find p rest (some g)

def firstMatch (p : V → Bool) (shards : List (G × List (K × V))) : Option (G × K × V) :=
  shards.findSome? (fun shard => (shard.2.find? (fun e => p e.2)).map (fun e => (shard.1, e)))

theorem drop_current (g : G) (current : Option G) :
    current.elim (g :: current.toList) (g :: current.toList).erase = [g] := by
  cases current with
  | none => rfl
  | some c =>
    by_cases hSame : g = c
    · rw [hSame]
      exact erase_cons_head ..
    · exact (erase_cons_tail (by simpa using hSame)).trans (by simp)

theorem find_cons (p : V → Bool) (g : G) (entries : List (K × V)) (rest : List (G × List (K × V)))
    (current : Option G) (s : S) :
    (find p ((g, entries) :: rest) current).run (s, current.toList) =
      match entries.find? (fun e => p e.2) with
      | some e => .ok (some e, s, [g])
      | none => (find p rest (some g)).run (s, [g]) := by
  have hRun : (find p ((g, entries) :: rest) current).run (s, current.toList) =
      (match entries.find? (fun e : K × V => p e.2) with
        | some e => pure (some e)
        | none => find p rest (some g) : Guarded G S (Option (K × V))).run
          (s, current.elim (g :: current.toList) (g :: current.toList).erase) := rfl
  rw [hRun, drop_current]
  cases entries.find? (fun e => p e.2) <;> rfl

variable {p : V → Bool} {shards : List (G × List (K × V))} {g : G} {e : K × V}

theorem find_of_match (current : Option G) (s : S) (h : firstMatch p shards = some (g, e)) :
    (find p shards current).run (s, current.toList) = .ok (some e, s, [g]) := by
  induction shards generalizing current with
  | nil => cases h
  | cons shard rest ih =>
    obtain ⟨g', entries⟩ := shard
    rw [firstMatch, findSome?_cons] at h
    rw [find_cons]
    cases hHere : entries.find? (fun e => p e.2) with
    | some e' =>
      rw [hHere] at h
      cases h
      rfl
    | none =>
      rw [hHere] at h
      exact ih (some g') h

theorem find_of_none (current : Option G) (s : S) (h : firstMatch p shards = none) :
    ∃ held, (find p shards current).run (s, current.toList) = .ok (none, s, held) := by
  induction shards generalizing current with
  | nil => exact ⟨_, rfl⟩
  | cons shard rest ih =>
    obtain ⟨g', entries⟩ := shard
    rw [firstMatch, findSome?_cons] at h
    rw [find_cons]
    cases hHere : entries.find? (fun e => p e.2) with
    | some e' =>
      rw [hHere] at h
      cases h
    | none =>
      rw [hHere] at h
      exact ih (some g') h

omit [DecidableEq G] in
theorem firstMatch_eq_some
    (h : firstMatch p shards = some (g, e)) : ∃ entries, (g, entries) ∈ shards ∧ e ∈ entries ∧ p e.2 = true := by
  obtain ⟨⟨g', entries⟩, hIn, hFound⟩ := exists_of_findSome?_eq_some h
  obtain ⟨e', hFind, hEq⟩ := Option.map_eq_some_iff.mp hFound
  cases hEq
  have hPasses := find?_some hFind
  exact ⟨entries, hIn, mem_of_find?_eq_some hFind, hPasses⟩

omit [DecidableEq G] in
theorem firstMatch_eq_none (h : firstMatch p shards = none)
    {entries : List (K × V)} (hShard : (g, entries) ∈ shards) (hEntry : e ∈ entries) :
    p e.2 = false := by
  have hNone := Option.map_eq_none_iff.mp (findSome?_eq_none_iff.mp h _ hShard)
  simpa using find?_eq_none.mp hNone e hEntry

theorem updateAll_run {ι : Type} {lock : ι → Option G} {f : ι → S → S} {held : List G} {items : List ι}
    (hFree : ∀ i ∈ items, ∀ g ∈ lock i, g ∉ held) (s : S) :
    (updateAll lock f items).run (s, held) = .ok ((), items.foldl (fun s i => f i s) s, held) := by
  induction items generalizing s with
  | nil => rfl
  | cons i items ih =>
    have hFirst : (updateUnder (lock i) (f i)).run (s, held) = .ok ((), f i s, held) := by
      cases hLock : lock i with
      | none => rfl
      | some g => exact if_neg (hFree i mem_cons_self g hLock)
    rw [updateAll, StateT.run_bind, hFirst]
    exact ih (fun j hIn => hFree j (mem_cons_of_mem _ hIn)) (f i s)

end Guarded

end Turna.Lib
