import Mathlib.Data.String.Basic
import Mathlib.Data.Vector.Basic

/-! # Byte strings

Big-endian words, padding to a multiple of four, and text as UTF-8. `utf8Lossy` replaces each maximal
ill-formed part by one U+FFFD.
-/

namespace Turna.Lib

abbrev Bytes := List UInt8

namespace Bytes
open List

def ofUInt16 (x : UInt16) : Bytes := [(x >>> 8).toUInt8, x.toUInt8]

def ofUInt32 (x : UInt32) : Bytes :=
  [(x >>> 24).toUInt8, (x >>> 16).toUInt8, (x >>> 8).toUInt8, x.toUInt8]

def ofUInt64 (x : UInt64) : Bytes := ofUInt32 (x >>> 32).toUInt32 ++ ofUInt32 x.toUInt32

@[simp] theorem length_ofUInt16 (x : UInt16) : (ofUInt16 x).length = 2 := rfl

@[simp] theorem length_ofUInt32 (x : UInt32) : (ofUInt32 x).length = 4 := rfl

def byteAt (b : Bytes) (i : Nat) : UInt8 := b.getD i 0

def uint16At (b : Bytes) (i : Nat) : UInt16 := (b.byteAt i).toUInt16 <<< 8 ||| (b.byteAt (i + 1)).toUInt16

def uint32At (b : Bytes) (i : Nat) : UInt32 :=
  (b.byteAt i).toUInt32 <<< 24 ||| (b.byteAt (i + 1)).toUInt32 <<< 16 |||
    (b.byteAt (i + 2)).toUInt32 <<< 8 ||| (b.byteAt (i + 3)).toUInt32

def uint64At (b : Bytes) (i : Nat) : UInt64 :=
  (b.uint32At i).toUInt64 <<< 32 ||| (b.uint32At (i + 4)).toUInt64

def slice (b : Bytes) (i n : Nat) : Bytes := (b.drop i).take n

variable {n k : Nat}

theorem length_slice {b : Bytes} {i : Nat} (h : i + n ≤ b.length) : (b.slice i n).length = n := by
  simp only [slice, length_take, length_drop]
  omega

theorem byteAt_slice (b : Bytes) (i : Nat) (h : k < n) : (b.slice i n).byteAt k = b.byteAt (i + k) := by
  simp only [byteAt, slice, getD_eq_getElem?_getD, getElem?_take, getElem?_drop, if_pos h]

theorem uint16At_slice (b : Bytes) (i : Nat) (h : k + 2 ≤ n) : (b.slice i n).uint16At k = b.uint16At (i + k) := by
  simp only [uint16At, byteAt_slice b i (show k < n by omega), byteAt_slice b i (show k + 1 < n by omega), Nat.add_assoc]

theorem slice_slice (b : Bytes) (i : Nat) {m : Nat} (h : k + m ≤ n) : (b.slice i n).slice k m = b.slice (i + k) m := by
  simp only [slice, drop_take, drop_drop, take_take]
  rw [Nat.min_eq_left (by omega)]

def arrayAt (b : Bytes) (i n : Nat) : List.Vector UInt8 n := .ofFn (fun k => b.byteAt (i + k))

theorem arrayAt_slice (b : Bytes) (i : Nat) {m : Nat} (h : k + m ≤ n) :
    (b.slice i n).arrayAt k m = b.arrayAt (i + k) m := by
  unfold arrayAt
  congr 1
  funext j
  rw [byteAt_slice b i (by omega), Nat.add_assoc]

def padded (n : Nat) : Nat := (n + 3) / 4 * 4

theorem le_padded (n : Nat) : n ≤ padded n := by
  unfold padded
  omega

theorem padded_le (n : Nat) : padded n ≤ n + 3 := by
  unfold padded
  omega

theorem padded_mod (n : Nat) : padded n % 4 = 0 := by
  unfold padded
  omega

def pad (b : Bytes) : Bytes := b ++ List.replicate (padded b.length - b.length) 0

@[simp] theorem length_pad (b : Bytes) : (pad b).length = padded b.length := by
  have := le_padded b.length
  simp only [pad, length_append, length_replicate]
  omega

def xor (a b : Bytes) : Bytes := List.zipWith (· ^^^ ·) a b

end Bytes

/-! ## Text -/

namespace Utf8

def encode (s : String) : Bytes := s.toByteArray.data.toList

theorem length_encode_ofList (l : List Char) : (encode (String.ofList l)).length = String.utf8Len l :=
  String.utf8ByteSize_ofList l

theorem utf8Len_le (l : List Char) : String.utf8Len l ≤ 4 * l.length := by
  induction l with
  | nil => exact Nat.le_refl 0
  | cons c l ih =>
    have := Char.utf8Size_le_four c
    rw [String.utf8Len_cons, List.length_cons]
    omega

def decode? (b : Bytes) : Option String := String.fromUTF8? ⟨b.toArray⟩

theorem decode_encode (s : String) : decode? (encode s) = some s := by
  have hBytes : (⟨(encode s).toArray⟩ : ByteArray) = s.toByteArray := by rw [encode, Array.toArray_toList]
  rw [decode?, hBytes, String.fromUTF8?, dif_pos s.isValidUTF8]
  rfl

def isContinuation (b : UInt8) : Bool := b &&& 0xC0 == 0x80

/-- Whether `second` may follow the lead byte of a three- or four-byte sequence. -/
def secondOk (lead second : UInt8) : Bool :=
  if lead == 0xE0 then 0xA0 ≤ second && second ≤ 0xBF
  else if lead == 0xED then 0x80 ≤ second && second ≤ 0x9F
  else if lead == 0xF0 then 0x90 ≤ second && second ≤ 0xBF
  else if lead == 0xF4 then 0x80 ≤ second && second ≤ 0x8F
  else isContinuation second

def width (lead : UInt8) : Nat :=
  if lead < 0x80 then 1
  else if 0xC2 ≤ lead && lead ≤ 0xDF then 2
  else if 0xE0 ≤ lead && lead ≤ 0xEF then 3
  else if 0xF0 ≤ lead && lead ≤ 0xF4 then 4
  else 0

/-- How many bytes the first sequence takes, and whether it is complete. -/
def firstLength (lead : UInt8) (rest : Bytes) : Nat × Bool :=
  match width lead with
  | 0 => (1, false)
  | 1 => (1, true)
  | 2 => if isContinuation (rest.byteAt 0) then (2, true) else (1, false)
  | 3 =>
    if secondOk lead (rest.byteAt 0) then
      if isContinuation (rest.byteAt 1) then (3, true) else (2, false)
    else (1, false)
  | _ =>
    if secondOk lead (rest.byteAt 0) then
      if isContinuation (rest.byteAt 1) then
        if isContinuation (rest.byteAt 2) then (4, true) else (3, false)
      else (2, false)
    else (1, false)

def lossyBytes : Nat → Bytes → Bytes
  | 0, _ => []
  | _ + 1, [] => []
  | fuel + 1, lead :: rest =>
    let (n, complete) := firstLength lead rest
    (if complete then lead :: rest.take (n - 1) else [0xEF, 0xBF, 0xBD]) ++
      lossyBytes fuel (rest.drop (n - 1))

def lossy (b : Bytes) : String := (decode? (lossyBytes b.length b)).getD ""

end Utf8

end Turna.Lib
