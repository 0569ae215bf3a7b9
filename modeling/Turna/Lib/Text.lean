import Mathlib.Data.List.Basic
import Mathlib.Data.String.Basic

/-! # Positional numerals and separated fields

Two renderings of numbers and one of field lists, each with the reason it can be read back:
numerals of minimal length, zero-padded numerals of a fixed width, and fields joined by a
separator that occurs in none of them.
-/

namespace Turna.Lib.Text
open Nat List

variable {n m b : Nat} {α : Type}

theorem digitChar_inj (hm : m < 16) (hn : n < 16) (h : m.digitChar = n.digitChar) : m = n := by
  have hAll : ∀ i j : Fin 16, i.val.digitChar = j.val.digitChar → i = j := by decide
  have hFin := hAll ⟨m, hm⟩ ⟨n, hn⟩ h
  exact congrArg Fin.val hFin

def hexDigit (c : Char) : Option Nat :=
  if '0' ≤ c ∧ c ≤ '9' then some (c.toNat - '0'.toNat)
  else if 'a' ≤ c ∧ c ≤ 'f' then some (c.toNat - 'a'.toNat + 10)
  else if 'A' ≤ c ∧ c ≤ 'F' then some (c.toNat - 'A'.toNat + 10)
  else none

theorem hexDigit_digitChar {d : Nat} (h : d < 16) : hexDigit d.digitChar = some d := by
  have hAll : ∀ i : Fin 16, hexDigit i.val.digitChar = some i.val := by decide
  exact hAll ⟨d, h⟩

def hexValue (digits : List Char) : Option Nat :=
  digits.foldlM (fun acc d => (hexDigit d).map (16 * acc + ·)) 0

theorem hexValue_toDigits (n : Nat) : hexValue (Nat.toDigits 16 n) = some n := by
  induction n using Nat.strongRecOn with
  | ind n ih =>
    rw [toDigits_eq_if (by decide)]
    split
    · next hSmall => simp [hexValue, hexDigit_digitChar hSmall]
    have hDiv := ih (n / 16) (div_lt_self (by omega) (by decide))
    rw [hexValue] at hDiv ⊢
    rw [foldlM_append, hDiv]
    simp [hexDigit_digitChar (mod_lt n (by decide)), div_add_mod]

theorem toDigits_inj (hBase : b = 10 ∨ b = 16) (h : Nat.toDigits b m = Nat.toDigits b n) : m = n := by
  obtain rfl | rfl := hBase
  · rw [← @ofDigitChars_ten_toDigits m, h, ofDigitChars_ten_toDigits]
  · exact Option.some.inj ((hexValue_toDigits m).symm.trans (h ▸ hexValue_toDigits n))

theorem mem_toDigits {c : Char} (hb : 1 < b) (h : c ∈ Nat.toDigits b n) : ∃ d, d < b ∧ c = d.digitChar := by
  induction n using Nat.strongRecOn with
  | ind n ih =>
    rw [toDigits_eq_if hb] at h
    split at h
    · rename_i hn
      exact ⟨n, hn, mem_singleton.mp h⟩
    rcases mem_append.mp h with h | h
    · exact ih (n / b) (div_lt_self (by omega) hb) h
    · exact ⟨n % b, mod_lt n (by omega), mem_singleton.mp h⟩

/-- The `width` lowest base-`b` digits, most significant first. -/
def padded (b : Nat) : Nat → Nat → List Char
  | 0, _ => []
  | width + 1, n => padded b width (n / b) ++ [(n % b).digitChar]

theorem length_padded (b width n : Nat) : (padded b width n).length = width := by
  induction width generalizing n with
  | zero => rfl
  | succ width ih => rw [padded, length_append, ih, length_singleton]

theorem padded_inj {width : Nat} (hb : 0 < b) (hb' : b ≤ 16) (hm : m < b ^ width) (hn : n < b ^ width)
    (h : padded b width m = padded b width n) : m = n := by
  induction width generalizing m n with
  | zero =>
    rw [pow_zero] at hm hn
    omega
  | succ width ih =>
    obtain ⟨hInit, hLast⟩ := append_inj' h rfl
    rw [pow_succ, mul_comm] at hm hn
    have hDiv := ih (Nat.div_lt_of_lt_mul hm) (Nat.div_lt_of_lt_mul hn) hInit
    have hmb := mod_lt m hb
    have hnb := mod_lt n hb
    have hMod := digitChar_inj (by omega) (by omega) (singleton_inj.mp hLast)
    rw [← div_add_mod m b, ← div_add_mod n b, hDiv, hMod]

theorem intercalate_inj [DecidableEq α] {sep : α} {xs ys : List (List α)}
    (hxs : xs ≠ []) (hys : ys ≠ []) (hx : ∀ l ∈ xs, sep ∉ l) (hy : ∀ l ∈ ys, sep ∉ l)
    (h : [sep].intercalate xs = [sep].intercalate ys) : xs = ys := by
  calc
    xs = ([sep].intercalate xs).splitOn sep := (splitOn_intercalate sep hx hxs).symm
    _ = ([sep].intercalate ys).splitOn sep := by rw [h]
    _ = ys := splitOn_intercalate sep hy hys

theorem mem_intercalate {sep x : α} {xs : List (List α)}
    (h : x ∈ [sep].intercalate xs) : x = sep ∨ ∃ l ∈ xs, x ∈ l := by
  induction xs with
  | nil => simp at h
  | cons l xs ih =>
    cases xs with
    | nil => exact Or.inr ⟨l, mem_cons_self, by simpa using h⟩
    | cons l' xs =>
      rw [intercalate_cons_cons, mem_append, mem_append] at h
      rcases h with (h | h) | h
      · exact Or.inr ⟨l, mem_cons_self, h⟩
      · exact Or.inl (mem_singleton.mp h)
      · rcases ih h with h | ⟨k, hk, hx⟩
        · exact Or.inl h
        · exact Or.inr ⟨k, mem_cons_of_mem _ hk, hx⟩

theorem intercalate_append (sep : α) {xs ys : List (List α)} (hxs : xs ≠ []) (hys : ys ≠ []) :
    [sep].intercalate (xs ++ ys) = [sep].intercalate xs ++ sep :: [sep].intercalate ys := by
  induction xs with
  | nil => exact False.elim (hxs rfl)
  | cons l xs ih =>
    cases xs with
    | nil =>
      rw [singleton_append, intercalate_cons_of_ne_nil hys, intercalate_singleton]
      simp
    | cons l' xs =>
      rw [cons_append, intercalate_cons_of_ne_nil (by simp), ih (by simp), intercalate_cons_cons]
      simp

theorem append_sep_inj {sep : α} {xs ys rest rest' : List α} (hx : sep ∉ xs) (hy : sep ∉ ys)
    (h : xs ++ sep :: rest = ys ++ sep :: rest') : xs = ys ∧ rest = rest' := by
  induction xs generalizing ys with
  | nil =>
    cases ys with
    | nil => exact ⟨rfl, (cons.inj h).2⟩
    | cons y ys => exact absurd ((cons.inj h).1 ▸ mem_cons_self) hy
  | cons x xs ih =>
    cases ys with
    | nil => exact absurd ((cons.inj h).1 ▸ mem_cons_self) hx
    | cons y ys =>
      obtain ⟨hHead, hTail⟩ := cons.inj h
      obtain ⟨rfl, hRest⟩ := ih (fun hMem => hx (mem_cons_of_mem _ hMem))
        (fun hMem => hy (mem_cons_of_mem _ hMem)) hTail
      exact ⟨hHead ▸ rfl, hRest⟩

theorem append_inj_of_utf8Len {xs ys rest rest' : List Char} (hLength : String.utf8Len xs = String.utf8Len ys)
    (h : xs ++ rest = ys ++ rest') : xs = ys ∧ rest = rest' := by
  obtain ⟨tail, rfl, rfl⟩ | ⟨tail, rfl, rfl⟩ := append_eq_append_iff.mp h
  · rw [String.utf8Len_append] at hLength
    have hNil : tail = [] := String.utf8Len_eq_zero.mp (by omega)
    simp [hNil]
  rw [String.utf8Len_append] at hLength
  have hNil : tail = [] := String.utf8Len_eq_zero.mp (by omega)
  simp [hNil]

/-- Before and after the first `sep`. -/
def splitOnce (sep : Char) (l : List Char) : Option (List Char × List Char) :=
  if sep ∈ l then some (l.takeWhile (· ≠ sep), (l.dropWhile (· ≠ sep)).tail) else none

theorem splitOnce_append {sep : Char} {xs : List Char} (h : sep ∉ xs) (rest : List Char) :
    splitOnce sep (xs ++ sep :: rest) = some (xs, rest) := by
  have hAll : ∀ c ∈ xs, decide (c ≠ sep) = true := fun c hIn => decide_eq_true fun hEq => h (hEq ▸ hIn)
  rw [splitOnce, if_pos (mem_append_right _ mem_cons_self), takeWhile_append_of_pos hAll,
    dropWhile_append_of_pos hAll]
  simp

def parseHex64 (l : List Char) : Option Nat :=
  let digits := match l with
    | '+' :: rest => rest
    | chars => chars
  if digits = [] then none else (hexValue digits).filter (· < 2 ^ 64)

theorem parseHex64_toDigits (h : n < 2 ^ 64) : parseHex64 (Nat.toDigits 16 n) = some n := by
  have hPlus : '+' ∉ toDigits 16 n := fun hIn => by
    obtain ⟨d, hd, hEq⟩ := mem_toDigits (by decide) hIn
    have hAll : ∀ i : Fin 16, '+' ≠ i.val.digitChar := by decide
    exact hAll ⟨d, hd⟩ hEq
  have hPos := length_toDigits_pos (b := 16) (n := n)
  have hValue := hexValue_toDigits n
  generalize toDigits 16 n = l at *
  rw [parseHex64, if_neg (ne_nil_of_length_pos hPos), hValue]
  · rw [Option.filter_some, if_pos (decide_eq_true h)]
  · rintro rest rfl
    exact hPlus mem_cons_self

def parseU64 (l : List Char) : Option Nat :=
  let digits := match l with
    | '+' :: rest => rest
    | chars => chars
  if digits ≠ [] ∧ digits.all Char.isDigit then
    let n := digits.foldl (fun acc d => 10 * acc + (d.toNat - '0'.toNat)) 0
    if n < 2 ^ 64 then some n else none
  else none

theorem parseU64_toDigits (h : n < 2 ^ 64) : parseU64 (Nat.toDigits 10 n) = some n := by
  have hDigits : ∀ c ∈ toDigits 10 n, c.isDigit = true := fun c => isDigit_of_mem_toDigits (by decide) (by decide)
  have hPlus : '+' ∉ toDigits 10 n := fun hIn => absurd (hDigits _ hIn) (by decide)
  have hPos := length_toDigits_pos (b := 10) (n := n)
  have hValue := ofDigitChars_eq_foldl.symm.trans (@ofDigitChars_ten_toDigits n)
  generalize toDigits 10 n = l at *
  rw [parseU64]
  · rw [if_pos ⟨ne_nil_of_length_pos hPos, all_eq_true.mpr hDigits⟩]
    rw [hValue, if_pos h]
  · rintro rest rfl
    exact hPlus mem_cons_self

end Turna.Lib.Text
