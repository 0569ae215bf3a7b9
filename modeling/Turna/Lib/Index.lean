import Mathlib.Data.List.Nodup
import Turna.Lib.HashMap

/-! # Secondary indices

An index sends what a record carries to the key the record is stored under. It is exact when it
has an entry for what the records carry and for nothing else.
-/

namespace Turna.Lib

variable {C R I : Type} [DecidableEq C] [DecidableEq I]

/-- `holds i c` exactly when the record at `c` carries `i`. -/
def Mirrors (holds : I → C → Prop) (records : HashMap C R) (carries : R → I → Prop) : Prop :=
  ∀ i c, holds i c ↔ ∃ r, records.get c = some r ∧ carries r i

namespace Mirrors

variable {holds holds' : I → C → Prop} {records : HashMap C R} {carries : R → I → Prop} {c : C} {r : R} {i : I}

omit [DecidableEq I]

section

variable (h : Mirrors holds records carries)
include h

theorem here (hr : records.get c = some r) : holds i c ↔ carries r i := by
  rw [h i c, hr]
  simp

theorem absent (hVacant : records.get c = none) : ¬ holds i c := by
  rw [h i c, hVacant]
  simp

theorem insert (hHere : ∀ i, holds' i c ↔ carries r i)
    (hElse : ∀ i c', c' ≠ c → (holds' i c' ↔ holds i c')) : Mirrors holds' (records.insert c r) carries := by
  intro i c'
  obtain rfl | hc := eq_or_ne c' c
  · simp [hHere]
  · rw [hElse i c' hc, HashMap.get_insert_ne _ _ hc, h i c']

theorem remove (c : C) : Mirrors (fun i c' => c' ≠ c ∧ holds i c') (records.remove c) carries := by
  intro i c'
  obtain rfl | hc := eq_or_ne c' c
  · simp
  · rw [HashMap.get_remove_ne _ hc, ← h i c']
    exact and_iff_right hc

end

theorem empty (h : ∀ i c, ¬ holds i c) : Mirrors holds .empty carries :=
  fun i c => iff_of_false (h i c) fun ⟨_, hGet, _⟩ => nomatch hGet

theorem congr (h : Mirrors holds records carries) (hSame : ∀ i c, holds' i c ↔ holds i c) :
    Mirrors holds' records carries :=
  fun i c => (hSame i c).trans (h i c)

end Mirrors

/-- The index holds `i ↦ c` exactly when the record at `c` carries `i`. -/
def IndexedBy (index : HashMap I C) (records : HashMap C R) (carries : R → I → Prop) : Prop :=
  ∀ i c, index.get i = some c ↔ ∃ r, records.get c = some r ∧ carries r i

namespace IndexedBy

variable {index index' : HashMap I C} {records : HashMap C R} {carries : R → I → Prop}

theorem empty : IndexedBy (.empty : HashMap I C) (.empty : HashMap C R) carries := Mirrors.empty nofun

variable {c : C} {r : R}

section

variable (h : IndexedBy index records carries)
include h

theorem mirrors : Mirrors (fun i c => index.get i = some c) records carries := h

theorem get_of_carries {i : I} (hr : records.get c = some r) (hi : carries r i) : index.get i = some c :=
  (h.mirrors.here hr).mpr hi

theorem unique {c' : C} {r' : R} {i : I}
    (hr : records.get c = some r) (hr' : records.get c' = some r') (hi : carries r i) (hi' : carries r' i) : c = c' :=
  Option.some.inj ((h.get_of_carries hr hi).symm.trans (h.get_of_carries hr' hi'))

theorem set (hOther : ∀ i c' r', carries r i → records.get c' = some r' → carries r' i → c' = c)
    (hHave : ∀ i, carries r i → index'.get i = some c)
    (hDrop : ∀ i, ¬ carries r i → index.get i = some c → index'.get i = none)
    (hKeep : ∀ i, ¬ carries r i → index.get i ≠ some c → index'.get i = index.get i) :
    IndexedBy index' (records.insert c r) carries := by
  refine h.mirrors.insert (fun i => ?_) fun i c' hc' => ?_
  · refine ⟨fun hGet => ?_, hHave i⟩
    by_contra hi
    by_cases hc : index.get i = some c
    · simp [hDrop i hi hc] at hGet
    · exact hc (hKeep i hi hc ▸ hGet)
  · by_cases hi : carries r i
    · rw [hHave i hi, Option.some.injEq]
      refine iff_of_false hc'.symm fun hOld => hc' ?_
      obtain ⟨r', hr', hi'⟩ := (h i c').mp hOld
      exact hOther i c' r' hi hr' hi'
    · by_cases hc : index.get i = some c
      · simp [hDrop i hi hc, hc, hc'.symm]
      · rw [hKeep i hi hc]

theorem erase (hDrop : ∀ i, index.get i = some c → index'.get i = none)
    (hKeep : ∀ i, index.get i ≠ some c → index'.get i = index.get i) : IndexedBy index' (records.remove c) carries := by
  refine (h.mirrors.remove c).congr fun i c' => ?_
  by_cases hc : index.get i = some c
  · simp [hDrop i hc, hc, eq_comm]
  · rw [hKeep i hc]
    exact ⟨fun hGet => ⟨fun hEq => hc (hEq ▸ hGet), hGet⟩, And.right⟩

theorem update {c : C} {r r' : R} (hr : records.get c = some r)
    (hSame : ∀ i, carries r' i ↔ carries r i) : IndexedBy index (records.insert c r') carries :=
  h.mirrors.insert (fun i => (h.mirrors.here hr).trans (hSame i).symm) fun _ _ _ => Iff.rfl

theorem move {c c' : C} {r r' : R} (hr : records.get c = some r)
    (hVacant : records.get c' = none) (hSame : ∀ i, carries r' i ↔ carries r i)
    (hHave : ∀ i, carries r i → index'.get i = some c') (hKeep : ∀ i, ¬ carries r i → index'.get i = index.get i) :
    IndexedBy index' ((records.remove c).insert c' r') carries := by
  refine (h.mirrors.remove c).insert (fun i => ?_) fun i x hx => ?_
  · rw [hSame i]
    refine ⟨fun hGet => ?_, hHave i⟩
    by_contra hi
    exact h.mirrors.absent hVacant (hKeep i hi ▸ hGet)
  · by_cases hi : carries r i
    · rw [hHave i hi, get_of_carries h hr hi]
      simp [hx.symm, eq_comm]
    · rw [hKeep i hi]
      refine ⟨fun hGet => ⟨?_, hGet⟩, And.right⟩
      rintro rfl
      exact hi ((h.mirrors.here hr).mp hGet)

end

end IndexedBy

section Field

variable {index : HashMap I C} {records : HashMap C R} {field : R → I}

def IndexedByField (index : HashMap I C) (records : HashMap C R) (field : R → I) : Prop :=
  IndexedBy index records (fun r i => field r = i)

namespace IndexedByField

section

variable (h : IndexedByField index records field)
include h

theorem insert {c : C} {r : R} (hVacant : records.get c = none)
    (hFresh : ∀ c' r', records.get c' = some r' → field r' ≠ field r) :
    IndexedByField (index.insert (field r) c) (records.insert c r) field := by
  refine (IndexedBy.mirrors h).insert (fun i => ?_) fun i c' hc' => ?_ <;> obtain rfl | hi := eq_or_ne i (field r)
  · simp
  · rw [HashMap.get_insert_ne _ _ hi]
    exact iff_of_false (fun hGet => (IndexedBy.mirrors h).absent hVacant hGet) hi.symm
  · rw [HashMap.get_insert_self, Option.some.injEq]
    refine iff_of_false hc'.symm fun hGet => ?_
    obtain ⟨r', hr', hi⟩ := (h _ c').mp hGet
    exact hFresh c' r' hr' hi
  · rw [HashMap.get_insert_ne _ _ hi]

theorem remove {c : C} {r : R} (hr : records.get c = some r) :
    IndexedByField (index.remove (field r)) (records.remove c) field := by
  refine ((IndexedBy.mirrors h).remove c).congr fun i c' => ?_
  obtain rfl | hi := eq_or_ne i (field r)
  · simp [IndexedBy.get_of_carries h hr rfl, eq_comm]
  · rw [HashMap.get_remove_ne _ hi]
    refine ⟨fun hGet => ⟨?_, hGet⟩, And.right⟩
    rintro rfl
    exact hi (((IndexedBy.mirrors h).here hr).mp hGet).symm

theorem update {c : C} {r r' : R} (hr : records.get c = some r)
    (hSame : field r' = field r) : IndexedByField index (records.insert c r') field :=
  IndexedBy.update h hr (fun i => by rw [hSame])

theorem move {c c' : C} {r r' : R} (hr : records.get c = some r)
    (hVacant : records.get c' = none) (hSame : field r' = field r) :
    IndexedByField (index.insert (field r) c') ((records.remove c).insert c' r') field := by
  refine IndexedBy.move h hr hVacant (fun i => by rw [hSame]) (fun i hi => ?_) (fun i hi => ?_)
  · rw [HashMap.get_insert, if_pos hi.symm]
  · rw [HashMap.get_insert_ne _ _ (fun hEq => hi hEq.symm)]

end

end IndexedByField

/-- Each entry of the index leads to a record that carries it. -/
def SoundBy (index : HashMap I C) (records : HashMap C R) (field : R → I) : Prop :=
  ∀ i c, index.get i = some c → ∃ r, records.get c = some r ∧ field r = i

namespace SoundBy

variable {c c' : C} {r r' : R}

section

variable (h : SoundBy index records field)
include h

theorem update (hr : records.get c = some r) (hSame : field r' = field r) :
    SoundBy index (records.insert c r') field := by
  intro i x hGet
  obtain ⟨b, hb, hi⟩ := h i x hGet
  obtain rfl | hx := eq_or_ne x c
  · rw [hr] at hb
    cases hb
    exact ⟨r', HashMap.get_insert_self .., hSame.trans hi⟩
  · exact ⟨b, (HashMap.get_insert_ne _ _ hx).trans hb, hi⟩

theorem insert (hVacant : records.get c = none) (r : R) :
    SoundBy (index.insert (field r) c) (records.insert c r) field := by
  intro i x hGet
  obtain rfl | hi := eq_or_ne i (field r)
  · rw [HashMap.get_insert_self] at hGet
    cases hGet
    exact ⟨r, HashMap.get_insert_self .., rfl⟩
  rw [HashMap.get_insert_ne _ _ hi] at hGet
  obtain ⟨b, hb, hField⟩ := h i x hGet
  have hx : x ≠ c := by
    rintro rfl
    simp [hVacant] at hb
  exact ⟨b, (HashMap.get_insert_ne _ _ hx).trans hb, hField⟩

theorem remove (hr : records.get c = some r) : SoundBy (index.remove (field r)) (records.remove c) field := by
  intro i x hGet
  obtain rfl | hi := eq_or_ne i (field r)
  · simp at hGet
  rw [HashMap.get_remove_ne _ hi] at hGet
  obtain ⟨b, hb, hField⟩ := h i x hGet
  have hx : x ≠ c := by
    rintro rfl
    rw [hr] at hb
    cases hb
    exact hi hField.symm
  exact ⟨b, (HashMap.get_remove_ne _ hx).trans hb, hField⟩

theorem move (hr : records.get c = some r) (hVacant : records.get c' = none) (hSame : field r' = field r) :
    SoundBy (index.insert (field r) c') ((records.remove c).insert c' r') field := by
  have hGone : (records.remove c).get c' = none := by rw [HashMap.get_remove, hVacant, ite_self]
  have hMoved := (h.remove hr).insert hGone r'
  rwa [hSame, HashMap.insert_remove] at hMoved

end

end SoundBy

end Field

section Lists

variable {K : Type} [DecidableEq K] {lists : HashMap K (List C)} {records : HashMap C R} {field : R → K}

/-- Each list holds the keys of the records with one value of the field, without duplicates. -/
structure ListedBy (lists : HashMap K (List C)) (records : HashMap C R) (field : R → K) : Prop where
  mem : ∀ k c, c ∈ (lists.get k).getD [] ↔ ∃ r, records.get c = some r ∧ field r = k
  nodup : ∀ k, ((lists.get k).getD []).Nodup

namespace ListedBy

theorem mirrors (h : ListedBy lists records field) :
    Mirrors (fun k c => c ∈ (lists.get k).getD []) records fun r k => field r = k :=
  h.mem

omit [DecidableEq C] in
theorem getD_modify (lists : HashMap K (List C)) (k k' : K) {f : List C → List C} (hNil : f [] = []) :
    ((lists.modify k f).get k').getD [] =
      if k' = k then f ((lists.get k).getD []) else (lists.get k').getD [] := by
  rw [HashMap.get_modify]
  split
  · cases lists.get k with
    | none => exact hNil.symm
    | some l => rfl
  · rfl

theorem empty : ListedBy (.empty : HashMap K (List C)) (.empty : HashMap C R) field where
  mem := Mirrors.empty nofun
  nodup _ := List.nodup_nil

section

variable (h : ListedBy lists records field)
include h

theorem push {c : C} {r : R} (hVacant : records.get c = none) :
    ListedBy (lists.insert (field r) ((lists.get (field r)).getD [] ++ [c])) (records.insert c r) field where
  mem := by
    refine h.mirrors.insert (fun k => ?_) fun k c' hc' => ?_ <;> obtain rfl | hk := eq_or_ne k (field r)
    · simp
    · simp [HashMap.get_insert_ne _ _ hk, h.mirrors.absent hVacant, hk.symm]
    · simp [hc']
    · simp [HashMap.get_insert_ne _ _ hk]
  nodup k := by
    obtain rfl | hk := eq_or_ne k (field r)
    · rw [HashMap.get_insert_self, Option.getD_some, ← List.concat_eq_append]
      exact (h.nodup _).concat (h.mirrors.absent hVacant)
    · rw [HashMap.get_insert_ne _ _ hk]
      exact h.nodup k

theorem update {c : C} {r r' : R} (hr : records.get c = some r)
    (hSame : field r' = field r) : ListedBy lists (records.insert c r') field where
  mem := h.mirrors.insert (fun k => by rw [hSame]; exact h.mirrors.here hr) fun _ _ _ => Iff.rfl
  nodup := h.nodup

theorem drop {c : C} {r : R} (hr : records.get c = some r) :
    ListedBy (lists.modify (field r) (fun l => l.filter (· ≠ c))) (records.remove c) field where
  mem := by
    refine (h.mirrors.remove c).congr fun k c' => ?_
    rw [getD_modify _ _ _ rfl]
    split
    · next hk => simp [hk, and_comm]
    · next hk =>
      refine ⟨fun hIn => ⟨?_, hIn⟩, And.right⟩
      rintro rfl
      exact hk ((h.mirrors.here hr).mp hIn).symm
  nodup k := by
    rw [getD_modify _ _ _ rfl]
    split
    · exact (h.nodup _).filter _
    · exact h.nodup k

theorem move {c c' : C} {r r' : R} (hr : records.get c = some r)
    (hVacant : records.get c' = none) (hSame : field r' = field r) :
    ListedBy (lists.modify (field r) (fun l => l.map (fun a => if a = c then c' else a)))
      ((records.remove c).insert c' r') field := by
  have hAbsent (k : K) : c' ∉ (lists.get k).getD [] := h.mirrors.absent hVacant
  have hHere (k : K) : c ∈ (lists.get k).getD [] ↔ field r = k := h.mirrors.here hr
  constructor
  · refine (h.mirrors.remove c).insert (fun k => ?_) fun k x hx => ?_ <;> rw [getD_modify _ _ _ rfl] <;> split
    · next hk =>
      rw [hSame, hk, eq_self_iff_true, iff_true, List.mem_map]
      exact ⟨c, (hHere _).mpr rfl, if_pos rfl⟩
    · next hk =>
      rw [hSame]
      exact iff_of_false (hAbsent k) (Ne.symm hk)
    · next hk =>
      rw [hk, List.mem_map]
      constructor
      · rintro ⟨a, ha, rfl⟩
        split at hx
        · exact absurd rfl hx
        · next hac => simpa [hac] using ha
      · rintro ⟨hxc, hIn⟩
        exact ⟨x, hIn, if_neg hxc⟩
    · next hk =>
      refine ⟨fun hIn => ⟨?_, hIn⟩, And.right⟩
      rintro rfl
      exact hk ((hHere k).mp hIn).symm
  · intro k
    rw [getD_modify _ _ _ rfl]
    split
    · refine List.Nodup.map_on (fun a ha b hb hEq => ?_) (h.nodup _)
      split at hEq <;> split at hEq
      · next hac hbc => exact hac.trans hbc.symm
      · exact absurd (hEq ▸ hb) (hAbsent _)
      · exact absurd (hEq ▸ ha) (hAbsent _)
      · exact hEq
    · exact h.nodup k

theorem retain : ListedBy (lists.retain (fun _ l => !l.isEmpty)) records field := by
  have hSame : ∀ k, ((lists.retain (fun _ l => !l.isEmpty)).get k).getD [] = (lists.get k).getD [] := by
    intro k
    rw [HashMap.get_retain]
    cases lists.get k with
    | none => rfl
    | some l => cases l <;> rfl
  exact ⟨h.mirrors.congr fun k c => by rw [hSame], fun k => by rw [hSame]; exact h.nodup k⟩

end

end ListedBy

end Lists

/-! ## One-to-one indices -/

/-- The index sends to each record what the record is listed under, and nothing else. -/
def Mirror (index : I → Option C) (listed : C → Option I) : Prop := ∀ i c, index i = some c ↔ listed c = some i

namespace Mirror

variable {index : I → Option C} {listed : C → Option I}

theorem link (h : Mirror index listed) {i : I} {c : C} (hi : index i = none) (hc : listed c = none) :
    Mirror (Function.update index i (some c)) (Function.update listed c (some i)) := by
  intro i' c'
  simp only [Function.update_apply]
  by_cases hI : i' = i <;> by_cases hC : c' = c
  · simp [hI, hC]
  · subst hI
    simp only [if_true, if_neg hC, Option.some.injEq]
    refine iff_of_false (Ne.symm hC) fun hListed => ?_
    rw [(h i' c').mpr hListed] at hi
    cases hi
  · subst hC
    simp only [if_true, if_neg hI, Option.some.injEq]
    refine iff_of_false (fun hIndex => ?_) (Ne.symm hI)
    rw [(h i' c').mp hIndex] at hc
    cases hc
  · simp only [if_neg hI, if_neg hC]
    exact h i' c'

theorem unlink (h : Mirror index listed) {i : I} {c : C} (hc : listed c = some i) :
    Mirror (Function.update index i none) (Function.update listed c none) := by
  intro i' c'
  simp only [Function.update_apply]
  by_cases hI : i' = i <;> by_cases hC : c' = c
  · simp [hI, hC]
  · subst hI
    simp only [if_true, if_neg hC, reduceCtorEq, false_iff]
    intro hListed
    have hEq := ((h i' c).mpr hc).symm.trans ((h i' c').mpr hListed)
    exact hC (Option.some.inj hEq).symm
  · subst hC
    simp only [if_true, if_neg hI, reduceCtorEq, iff_false]
    intro hIndex
    have hEq := hc.symm.trans ((h i' c').mp hIndex)
    exact hI (Option.some.inj hEq).symm
  · simp only [if_neg hI, if_neg hC]
    exact h i' c'

end Mirror

end Turna.Lib
