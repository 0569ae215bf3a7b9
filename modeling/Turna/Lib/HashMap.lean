import Mathlib.Data.List.AList

/-! # Finite maps with an unspecified iteration order

A hash map is an association list with distinct keys. Which entry an iteration meets first is
not part of its meaning, so a program that iterates takes an `IterOrder` as an argument.
-/

namespace Turna.Lib

universe u v

structure HashMap (K : Type u) (V : Type v) where
  alist : AList (fun _ : K => V)

/-- The order in which a traversal meets the elements of a collection. -/
structure IterOrder where
  visit : {α : Type} → List α → List α
  perm : ∀ {α : Type} (l : List α), (visit l).Perm l

def IterOrder.stored : IterOrder where
  visit l := l
  perm _ := .refl _

theorem IterOrder.mem_visit (order : IterOrder) {α : Type} {l : List α} {x : α} : x ∈ order.visit l ↔ x ∈ l :=
  (order.perm l).mem_iff

namespace HashMap
open List Option Nat Function

variable {K : Type u} {V : Type v}

def empty : HashMap K V := ⟨∅⟩

def entries (m : HashMap K V) : List (K × V) := m.alist.entries.map (fun e => (e.1, e.2))

def keys (m : HashMap K V) : List K := m.entries.map Prod.fst

def len (m : HashMap K V) : Nat := m.alist.entries.length

def countP (p : V → Bool) (m : HashMap K V) : Nat := m.alist.entries.countP (fun e => p e.2)

def retain (p : K → V → Bool) (m : HashMap K V) : HashMap K V :=
  ⟨⟨m.alist.entries.filter (fun e => p e.1 e.2), m.alist.nodupKeys.sublist List.filter_sublist⟩⟩

def mapValues (f : K → V → V) (m : HashMap K V) : HashMap K V where
  alist :=
    { entries := m.alist.entries.map fun e => ⟨e.1, f e.1 e.2⟩
      nodupKeys := by
        have hKeys := m.alist.nodupKeys
        rw [List.NodupKeys, List.keys] at hKeys ⊢
        rw [List.map_map]
        exact hKeys }

variable [DecidableEq K]

def get (m : HashMap K V) (k : K) : Option V := m.alist.lookup k

def insert (m : HashMap K V) (k : K) (v : V) : HashMap K V := ⟨m.alist.insert k v⟩

def remove (m : HashMap K V) (k : K) : HashMap K V := ⟨m.alist.erase k⟩

def contains (m : HashMap K V) (k : K) : Bool := (m.get k).isSome

def sameAs [DecidableEq V] (m m' : HashMap K V) : Bool :=
  m.len == m'.len && m.entries.all fun e => decide (m'.get e.1 = some e.2)

def modify (m : HashMap K V) (k : K) (f : V → V) : HashMap K V :=
  match m.get k with
  | none => m
  | some v => m.insert k (f v)

def orInsert (m : HashMap K V) (k : K) (v : V) : HashMap K V :=
  match m.get k with
  | none => m.insert k v
  | some _ => m

@[simp] theorem get_empty (k : K) : (empty : HashMap K V).get k = none := rfl

theorem get_insert (m : HashMap K V) (k k' : K) (v : V) :
    (m.insert k v).get k' = if k' = k then some v else m.get k' := by
  by_cases h : k' = k
  · subst h
    rw [if_pos rfl]
    exact AList.lookup_insert m.alist
  · rw [if_neg h]
    exact AList.lookup_insert_ne h

theorem get_insert_eq_update (m : HashMap K V) (k : K) (v : V) :
    (m.insert k v).get = Function.update m.get k (some v) := by
  funext k'
  rw [get_insert, update_apply]

@[simp] theorem get_insert_self (m : HashMap K V) (k : K) (v : V) : (m.insert k v).get k = some v := by
  rw [get_insert, if_pos rfl]

variable {k k' : K} {m : HashMap K V} {v : V}

theorem get_insert_ne (m : HashMap K V) (v : V) (h : k' ≠ k) : (m.insert k v).get k' = m.get k' := by
  rw [get_insert, if_neg h]

theorem get_insert_cases {v' : V} (h : (m.insert k v).get k' = some v') : k' = k ∧ v = v' ∨ m.get k' = some v' := by
  rw [get_insert] at h
  split at h
  · next hEq => exact .inl ⟨hEq, some.inj h⟩
  · exact .inr h

theorem get_remove (m : HashMap K V) (k k' : K) : (m.remove k).get k' = if k' = k then none else m.get k' := by
  by_cases h : k' = k
  · subst h
    rw [if_pos rfl]
    exact AList.lookup_erase k' m.alist
  · rw [if_neg h]
    exact AList.lookup_erase_ne h

theorem get_remove_eq_update (m : HashMap K V) (k : K) : (m.remove k).get = Function.update m.get k none := by
  funext k'
  rw [get_remove, update_apply]

@[simp] theorem get_remove_self (m : HashMap K V) (k : K) : (m.remove k).get k = none := by
  rw [get_remove, if_pos rfl]

theorem get_remove_ne (m : HashMap K V) (h : k' ≠ k) : (m.remove k).get k' = m.get k' := by
  rw [get_remove, if_neg h]

theorem get_of_get_remove (h : (m.remove k).get k' = some v) : m.get k' = some v := by
  rw [get_remove] at h
  split at h
  · cases h
  · exact h

theorem mem_entries_iff : (k, v) ∈ m.entries ↔ m.get k = some v := by
  rw [entries, List.mem_map]
  constructor
  · rintro ⟨⟨k', v'⟩, hMem, hEq⟩
    cases hEq
    exact mem_dlookup m.alist.nodupKeys hMem
  · intro h
    exact ⟨⟨k, v⟩, of_mem_dlookup h, rfl⟩

theorem mem_keys_iff : k ∈ m.keys ↔ ∃ v, m.get k = some v := by
  rw [keys, List.mem_map]
  constructor
  · rintro ⟨⟨k', v⟩, hMem, rfl⟩
    exact ⟨v, mem_entries_iff.mp hMem⟩
  · rintro ⟨v, hv⟩
    exact ⟨(k, v), mem_entries_iff.mpr hv, rfl⟩

omit [DecidableEq K] in
theorem nodup_keys (m : HashMap K V) : m.keys.Nodup := by
  have h := m.alist.nodupKeys
  rw [List.NodupKeys, List.keys] at h
  rw [keys, entries, List.map_map]
  exact h

omit [DecidableEq K] in
theorem nodup_entries (m : HashMap K V) : m.entries.Nodup := m.nodup_keys.of_map _

theorem entries_insert_perm (m : HashMap K V) (k : K) (v : V) :
    (m.insert k v).entries.Perm ((k, v) :: m.entries.filter (fun e => e.1 ≠ k)) := by
  rw [perm_ext_iff_of_nodup (nodup_entries _)]
  · rintro ⟨k', v'⟩
    rw [mem_entries_iff, get_insert, mem_cons, mem_filter, mem_entries_iff]
    split
    · next h => simp [h, eq_comm]
    · next h => simp [h]
  · rw [nodup_cons]
    exact ⟨by simp, m.nodup_entries.filter _⟩

theorem remove_of_get_none (h : m.get k = none) : m.remove k = m := by
  have hErase : m.alist.erase k = m.alist := by
    apply AList.ext
    exact kerase_of_notMem_keys (AList.lookup_eq_none.mp h)
  rw [remove, hErase]

theorem entries_insert (m : HashMap K V) (k : K) (v : V) : (m.insert k v).entries = (k, v) :: (m.remove k).entries :=
  congrArg (map _) AList.entries_insert

theorem entries_insert_of_none (m : HashMap K V) (v : V) (h : m.get k = none) :
    (m.insert k v).entries = (k, v) :: m.entries := by
  rw [entries_insert, remove_of_get_none h]

theorem entries_perm_remove (h : m.get k = some v) : m.entries.Perm ((k, v) :: (m.remove k).entries) := by
  rw [perm_ext_iff_of_nodup m.nodup_entries]
  · rintro ⟨k', v'⟩
    rw [mem_entries_iff, mem_cons, mem_entries_iff, get_remove]
    split
    · next hk =>
      subst hk
      rw [h]
      simp [eq_comm]
    · next hk => simp [hk]
  · rw [nodup_cons, mem_entries_iff, get_remove_self]
    exact ⟨by simp, nodup_entries _⟩

omit [DecidableEq K] in
theorem entries_retain (p : K → V → Bool) (m : HashMap K V) :
    (m.retain p).entries = m.entries.filter (fun e => p e.1 e.2) := by
  rw [entries, entries, List.filter_map]
  rfl

omit [DecidableEq K] in
theorem retain_all {p : K → V → Bool} (h : (m.retain p).len = m.len) {e : K × V}
    (he : e ∈ m.entries) : p e.1 e.2 = true := by
  have hLen : (m.entries.filter fun e => p e.1 e.2).length = m.entries.length := by
    rw [← entries_retain]
    simpa [entries, len] using h
  exact length_filter_eq_length_iff.mp hLen e he

omit [DecidableEq K] in
theorem len_eq_zero_iff : m.len = 0 ↔ m.entries = [] := by
  rw [entries, map_eq_nil_iff, len, length_eq_zero_iff]

theorem get_of_len_zero (h : m.len = 0) (k : K) : m.get k = none := by
  cases hGet : m.get k with
  | none => rfl
  | some v =>
    have hMem := mem_entries_iff.mpr hGet
    rw [len_eq_zero_iff.mp h] at hMem
    cases hMem

theorem len_insert_ne_zero (m : HashMap K V) (k : K) (v : V) : (m.insert k v).len ≠ 0 := by
  intro h
  have hGet := get_of_len_zero h k
  rw [get_insert_self] at hGet
  cases hGet

theorem get_retain (p : K → V → Bool) (m : HashMap K V) (k : K) : (m.retain p).get k = (m.get k).filter (p k) := by
  apply ext
  intro v
  rw [filter_eq_some_iff]
  have hLeft : (m.retain p).get k = some v ↔ (k, v) ∈ (m.retain p).entries := mem_entries_iff.symm
  rw [hLeft, ← mem_entries_iff]
  simp only [entries, retain, List.mem_map, mem_filter]
  constructor
  · rintro ⟨⟨k', v'⟩, ⟨hMem, hp⟩, hEq⟩
    cases hEq
    exact ⟨⟨_, hMem, rfl⟩, hp⟩
  rintro ⟨⟨⟨k', v'⟩, hMem, hEq⟩, hp⟩
  cases hEq
  exact ⟨_, ⟨hMem, hp⟩, rfl⟩

theorem get_mapValues (f : K → V → V) (m : HashMap K V) (k : K) : (m.mapValues f).get k = (m.get k).map (f k) := by
  apply ext
  intro v
  rw [map_eq_some_iff, ← mem_entries_iff]
  simp only [entries, mapValues, List.map_map, List.mem_map]
  constructor
  · rintro ⟨⟨k', v'⟩, hMem, hEq⟩
    cases hEq
    exact ⟨v', List.mem_dlookup m.alist.nodupKeys hMem, rfl⟩
  · rintro ⟨v', hGet, rfl⟩
    exact ⟨⟨k, v'⟩, List.of_mem_dlookup hGet, rfl⟩

theorem get_modify (m : HashMap K V) (k k' : K) (f : V → V) :
    (m.modify k f).get k' = if k' = k then (m.get k).map f else m.get k' := by
  unfold modify
  cases h : m.get k with
  | none =>
    by_cases hk : k' = k
    · rw [if_pos hk, hk, h, map_none]
    · rw [if_neg hk]
  | some v => exact get_insert m k k' (f v)

theorem get_orInsert (m : HashMap K V) (k k' : K) (v : V) :
    (m.orInsert k v).get k' = if k' = k then some ((m.get k).getD v) else m.get k' := by
  unfold orInsert
  cases h : m.get k with
  | none => exact get_insert m k k' v
  | some w =>
    by_cases hk : k' = k
    · rw [if_pos hk, hk, h, getD_some]
    · rw [if_neg hk]

theorem get_eq_of_sameAs [DecidableEq V] {m' : HashMap K V} (h : m.sameAs m' = true) (k : K) :
    m.get k = m'.get k := by
  rw [sameAs, Bool.and_eq_true, beq_iff_eq, List.all_eq_true] at h
  obtain ⟨hLen, hAll⟩ := h
  have hSub : m.entries ⊆ m'.entries := by
    rintro ⟨k, v⟩ hMem
    exact mem_entries_iff.mpr (of_decide_eq_true (hAll _ hMem))
  have hLength : m'.entries.length ≤ m.entries.length := by
    rw [entries, entries, List.length_map, List.length_map]
    exact Nat.le_of_eq hLen.symm
  have hPerm := (List.subperm_of_subset m.nodup_entries hSub).perm_of_length_le hLength
  apply Option.ext
  intro v
  rw [← mem_entries_iff, ← mem_entries_iff]
  exact hPerm.mem_iff

theorem get_foldl_insert {ι : Type*} (g : ι → K) (v : V) (l : List ι) (m : HashMap K V) (k : K) :
    (l.foldl (fun m i => m.insert (g i) v) m).get k = if k ∈ l.map g then some v else m.get k := by
  induction l generalizing m with
  | nil => rw [foldl_nil, map_nil, if_neg not_mem_nil]
  | cons i l ih =>
    rw [foldl_cons, ih, get_insert, map_cons]
    by_cases hTail : k ∈ l.map g
    · rw [if_pos hTail, if_pos (mem_cons_of_mem _ hTail)]
    rw [if_neg hTail]
    by_cases hHead : k = g i
    · rw [if_pos hHead, if_pos (hHead ▸ mem_cons_self)]
    · rw [if_neg hHead, if_neg (by simp [hHead, hTail])]

theorem get_foldl_remove (l : List K) (m : HashMap K V) (k : K) :
    (l.foldl remove m).get k = if k ∈ l then none else m.get k := by
  induction l generalizing m with
  | nil => rw [foldl_nil, if_neg not_mem_nil]
  | cons i l ih =>
    rw [foldl_cons, ih, get_remove]
    by_cases hTail : k ∈ l
    · rw [if_pos hTail, if_pos (mem_cons_of_mem _ hTail)]
    rw [if_neg hTail]
    by_cases hHead : k = i
    · rw [if_pos hHead, if_pos (hHead ▸ mem_cons_self)]
    · rw [if_neg hHead, if_neg (by simp [hHead, hTail])]

omit [DecidableEq K] in
theorem len_eq_countP (m : HashMap K V) : m.len = m.countP (fun _ => true) := by
  simp [len, countP]

omit [DecidableEq K] in
theorem countP_eq (p : V → Bool) (m : HashMap K V) : m.countP p = m.entries.countP fun e => p e.2 := by
  rw [countP, entries, countP_map]
  rfl

theorem countP_insert (p : V → Bool) (m : HashMap K V) (k : K) (v : V) :
    (m.insert k v).countP p = (m.remove k).countP p + (p v).toNat := by
  rw [countP_eq, entries_insert, countP_cons, countP_eq]
  cases p v <;> rfl

theorem countP_insert_of_none (p : V → Bool) (v : V)
    (h : m.get k = none) : (m.insert k v).countP p = m.countP p + (p v).toNat := by
  rw [countP_insert, remove_of_get_none h]

theorem countP_remove_of_some (p : V → Bool)
    (h : m.get k = some v) : m.countP p = (m.remove k).countP p + (p v).toNat := by
  rw [countP_eq, (entries_perm_remove h).countP_eq, countP_cons, countP_eq]
  cases p v <;> rfl

theorem len_le_remove (m : HashMap K V) (k : K) : m.len ≤ (m.remove k).len + 1 := by
  cases h : m.get k with
  | none =>
    rw [remove_of_get_none h]
    exact le_succ _
  | some v => rw [len_eq_countP, len_eq_countP, countP_remove_of_some _ h, Bool.toNat_true]

theorem len_le_foldl_remove (l : List K) (m : HashMap K V) : m.len ≤ (l.foldl remove m).len + l.length := by
  induction l generalizing m with
  | nil => exact le_refl _
  | cons k l ih =>
    have hHead := m.len_le_remove k
    have hTail := ih (m.remove k)
    rw [foldl_cons, length_cons]
    omega

theorem insert_remove (m : HashMap K V) (k : K) (v : V) : (m.remove k).insert k v = m.insert k v := by
  have hErase : (m.alist.erase k).insert k v = m.alist.insert k v := by
    apply AList.ext
    rw [AList.entries_insert, AList.entries_insert]
    exact congrArg (⟨k, v⟩ :: ·) (kerase_of_notMem_keys (notMem_keys_kerase k m.alist.nodupKeys))
  exact congrArg HashMap.mk hErase

theorem countP_insert_of_some (p : V → Bool) {w : V} (v : V) (h : m.get k = some w) :
    (m.insert k v).countP p + (p w).toNat = m.countP p + (p v).toNat := by
  rw [countP_insert, countP_remove_of_some p h]
  omega

theorem countP_move (p : V → Bool) {v' : V} (h : m.get k = some v)
    (hVacant : m.get k' = none) (hSame : p v' = p v) : ((m.remove k).insert k' v').countP p = m.countP p := by
  have hGone : (m.remove k).get k' = none := by rw [get_remove, hVacant, ite_self]
  rw [countP_insert_of_none p v' hGone, countP_remove_of_some p h, hSame]

theorem len_insert_of_none (v : V) (h : m.get k = none) : (m.insert k v).len = m.len + 1 := by
  rw [len_eq_countP, len_eq_countP, countP_insert_of_none _ v h, Bool.toNat_true]

theorem len_insert_of_some {w : V} (v : V) (h : m.get k = some w) : (m.insert k v).len = m.len := by
  rw [len_eq_countP, len_eq_countP]
  exact Nat.add_right_cancel (countP_insert_of_some (fun _ => true) v h)

theorem len_remove_of_some (h : m.get k = some v) : m.len = (m.remove k).len + 1 := by
  rw [len_eq_countP, len_eq_countP, countP_remove_of_some _ h, Bool.toNat_true]

theorem len_remove_le (m : HashMap K V) (k : K) : (m.remove k).len ≤ m.len := by
  cases h : m.get k with
  | none => rw [remove_of_get_none h]
  | some v => exact le_of_succ_le (le_of_eq (len_remove_of_some h).symm)

theorem nodup_visit {K V : Type} (order : IterOrder) (m : HashMap K V) :
    ((order.visit m.entries).map Prod.fst).Nodup :=
  ((order.perm m.entries).map Prod.fst).nodup_iff.mpr m.nodup_keys

section Visit

variable {K V σ : Type} [DecidableEq K] {m : HashMap K V} (order : IterOrder)

theorem mem_visit_iff {e : K × V} : e ∈ order.visit m.entries ↔ m.get e.1 = some e.2 :=
  order.mem_visit.trans mem_entries_iff

/-- A traversal that changes only the entry it meets meets every entry as it was at the start. -/
theorem foldl_visit (read : σ → K → Option V) {step : σ → K × V → σ}
    (hOther : ∀ s e k, k ≠ e.1 → read (step s e) k = read s k) (P : List (K × V) → σ → Prop) {s : σ}
    (hRead : ∀ k, read s k = m.get k) (hStart : P [] s)
    (hStep : ∀ seen s e, P seen s → m.get e.1 = some e.2 → read s e.1 = some e.2 → P (seen ++ [e]) (step s e)) :
    P (order.visit m.entries) ((order.visit m.entries).foldl step s) := by
  have hFold (l seen : List (K × V)) (s : σ) (hKeys : (l.map Prod.fst).Nodup)
      (hGet : ∀ e ∈ l, m.get e.1 = some e.2 ∧ read s e.1 = some e.2) (hSeen : P seen s) :
      P (seen ++ l) (l.foldl step s) := by
    induction l generalizing seen s with
    | nil => simpa using hSeen
    | cons e l ih =>
      rw [map_cons, nodup_cons] at hKeys
      obtain ⟨hFirst, hNow⟩ := hGet e mem_cons_self
      have hRest := ih (seen ++ [e]) (step s e) hKeys.2 (fun e' hMem => ?_) (hStep seen s e hSeen hFirst hNow)
      · simpa using hRest
      obtain ⟨hFirst, hNow⟩ := hGet e' (mem_cons_of_mem _ hMem)
      have hNe : e'.1 ≠ e.1 := fun hEq => hKeys.1 (hEq ▸ mem_map_of_mem hMem)
      exact ⟨hFirst, (hOther s e e'.1 hNe).trans hNow⟩
  refine hFold _ [] s (nodup_visit order m) (fun e hMem => ?_) hStart
  have hGet := (mem_visit_iff order).mp hMem
  exact ⟨hGet, (hRead _).trans hGet⟩

end Visit

theorem countP_eq_zero_iff {p : V → Bool} : m.countP p = 0 ↔ ∀ k v, m.get k = some v → p v = false := by
  rw [countP, countP_eq_zero]
  constructor
  · intro h k v hv
    have hMem : (⟨k, v⟩ : Sigma fun _ : K => V) ∈ m.alist.entries := of_mem_dlookup hv
    simpa using h _ hMem
  · rintro h ⟨k, v⟩ hMem
    simpa using h k v (mem_dlookup m.alist.nodupKeys hMem)

/-! ## Counter maps

A missing entry counts zero. A counter is changed through its entry, so an update of a missing entry is lost.
-/

section Tally

variable {K : Type} [DecidableEq K] (m : HashMap K Int)

def tally (k : K) : Int := (m.get k).getD 0

variable {k : K}

theorem contains_of_tally_ne_zero {m : HashMap K Int} (h : m.tally k ≠ 0) : m.contains k = true := by
  rw [tally] at h
  rw [contains]
  cases hGet : m.get k with
  | none =>
    rw [hGet] at h
    exact absurd rfl h
  | some n => rfl

theorem tally_orInsert (k k' : K) : (m.orInsert k 0).tally k' = m.tally k' := by
  rw [tally, get_orInsert, tally]
  split
  · next h => rw [h, getD_some]
  · rfl

theorem contains_orInsert (k : K) (n : Int) : (m.orInsert k n).contains k = true := by
  rw [contains, get_orInsert, if_pos rfl, isSome_some]

theorem contains_orInsert_of_contains {m : HashMap K Int} {k' : K} (k : K) {n : Int} (h : m.contains k' = true) :
    (m.orInsert k n).contains k' = true := by
  rw [contains, get_orInsert]
  split
  · rfl
  · exact h

theorem tally_modify {m : HashMap K Int} (h : m.contains k = true) (n : Int) (k' : K) :
    (m.modify k (· + n)).tally k' = m.tally k' + if k' = k then n else 0 := by
  rw [tally, get_modify, tally]
  split
  · next hk =>
    subst hk
    obtain ⟨v, hv⟩ := isSome_iff_exists.mp h
    rw [hv]
    rfl
  · rw [Int.add_zero]

theorem contains_modify (k k' : K) (f : Int → Int) : (m.modify k f).contains k' = m.contains k' := by
  rw [contains, get_modify, contains]
  split
  · next h => rw [h, isSome_map]
  · rfl

theorem tally_retain_pos {m : HashMap K Int} (h : 0 ≤ m.tally k) :
    (m.retain (fun _ v => decide (0 < v))).tally k = m.tally k := by
  rw [tally] at h
  rw [tally, get_retain, tally]
  cases hGet : m.get k with
  | none => rfl
  | some v =>
    rw [hGet, getD_some] at h
    rw [filter_some]
    split
    · rfl
    next hv =>
    have hLe : ¬ 0 < v := fun hPos => hv (decide_eq_true hPos)
    rw [getD_none, getD_some]
    omega

theorem tally_prune {m : HashMap K Int} (h : 0 ≤ m.tally k) (k' : K) :
    (if 0 < m.tally k then m else m.remove k).tally k' = m.tally k' := by
  split
  · rfl
  rw [tally, get_remove]
  split
  · next hk =>
    rw [hk, getD_none]
    omega
  · rfl

theorem contains_prune {m : HashMap K Int} {k' : K} (h : k' ≠ k) :
    (if 0 < m.tally k then m else m.remove k).contains k' = m.contains k' := by
  split
  · rfl
  · rw [contains, get_remove_ne _ h, contains]

end Tally

end HashMap

end Turna.Lib
