import Turna.Lib.Text

/-! # Socket addresses and their textual form

The persisted rows hold addresses as text, so the rendering is part of the model. An IP address
can be read back from its text; a socket address cannot, because the IPv6 flow label is not shown.
-/

namespace Turna.Net
open Lib List Nat Text

structure Ipv4Addr where
  a : UInt8
  b : UInt8
  c : UInt8
  d : UInt8
  deriving DecidableEq, Repr

structure Ipv6Addr where
  s0 : UInt16
  s1 : UInt16
  s2 : UInt16
  s3 : UInt16
  s4 : UInt16
  s5 : UInt16
  s6 : UInt16
  s7 : UInt16
  deriving DecidableEq, Repr

inductive IpAddr where
  | v4 (ip : Ipv4Addr)
  | v6 (ip : Ipv6Addr)
  deriving DecidableEq, Repr

inductive SocketAddr where
  | v4 (ip : Ipv4Addr) (port : UInt16)
  | v6 (ip : Ipv6Addr) (port : UInt16) (flowinfo scopeId : UInt32)
  deriving DecidableEq, Repr

def SocketAddr.ip : SocketAddr → IpAddr
  | .v4 ip _ => .v4 ip
  | .v6 ip _ _ _ => .v6 ip

def SocketAddr.port : SocketAddr → UInt16
  | .v4 _ port => port
  | .v6 _ port _ _ => port

def SocketAddr.isIpv6 : SocketAddr → Bool
  | .v4 .. => false
  | .v6 .. => true

def SocketAddr.new : IpAddr → UInt16 → SocketAddr
  | .v4 ip, port => .v4 ip port
  | .v6 ip, port => .v6 ip port 0 0

@[simp] theorem SocketAddr.port_new (ip : IpAddr) (port : UInt16) : (SocketAddr.new ip port).port = port := by
  cases ip <;> rfl

namespace Ipv4Addr

def octets (ip : Ipv4Addr) : List UInt8 := [ip.a, ip.b, ip.c, ip.d]

def display (ip : Ipv4Addr) : List Char :=
  ['.'].intercalate (ip.octets.map (fun o => Nat.toDigits 10 o.toNat))

theorem decimal_not_mem (c : Char) (hc : c.isDigit = false) (o : UInt8) : c ∉ toDigits 10 o.toNat := by
  intro h
  have hDigit := isDigit_of_mem_toDigits (by decide) (by decide) h
  rw [hc] at hDigit
  cases hDigit

theorem display_inj {ip ip' : Ipv4Addr} (h : ip.display = ip'.display) : ip = ip' := by
  have hFields := intercalate_inj (by simp [octets]) (by simp [octets])
    (by simp only [forall_mem_map]; exact fun o _ => decimal_not_mem '.' (by decide) o)
    (by simp only [forall_mem_map]; exact fun o _ => decimal_not_mem '.' (by decide) o) h
  simp only [octets, map_cons, map_nil, cons.injEq, and_true] at hFields
  have hOctet : ∀ {o o' : UInt8}, toDigits 10 o.toNat = toDigits 10 o'.toNat → o = o' :=
    fun h => UInt8.toNat_inj.mp (toDigits_inj (by decide) h)
  obtain ⟨ha, hb, hc, hd⟩ := hFields
  cases ip
  cases ip'
  simp only [mk.injEq]
  exact ⟨hOctet ha, hOctet hb, hOctet hc, hOctet hd⟩

theorem dot_mem_display (ip : Ipv4Addr) : '.' ∈ ip.display := by
  simp [display, octets, intercalate]

theorem colon_not_mem_display (ip : Ipv4Addr) : ':' ∉ ip.display := by
  intro h
  rcases mem_intercalate h with h | ⟨l, hl, h⟩
  · cases h
  · obtain ⟨o, _, rfl⟩ := mem_map.mp hl
    exact decimal_not_mem ':' (by decide) o h

end Ipv4Addr

namespace Ipv6Addr

def segments (ip : Ipv6Addr) : List UInt16 :=
  [ip.s0, ip.s1, ip.s2, ip.s3, ip.s4, ip.s5, ip.s6, ip.s7]

variable {ip ip' : Ipv6Addr} {chunk chunk' : List UInt16} {l : List Char}

theorem segments_inj (h : ip.segments = ip'.segments) : ip = ip' := by
  cases ip
  cases ip'
  simpa [segments] using h

def toIpv4Mapped (ip : Ipv6Addr) : Option Ipv4Addr :=
  if ip.s0 = 0 ∧ ip.s1 = 0 ∧ ip.s2 = 0 ∧ ip.s3 = 0 ∧ ip.s4 = 0 ∧ ip.s5 = 0xffff then
    some ⟨(ip.s6 / 256).toUInt8, (ip.s6 % 256).toUInt8, (ip.s7 / 256).toUInt8, (ip.s7 % 256).toUInt8⟩
  else none

theorem bytes_inj {s s' : UInt16} (hHigh : (s / 256).toUInt8 = (s' / 256).toUInt8)
    (hLow : (s % 256).toUInt8 = (s' % 256).toUInt8) : s = s' := by
  have h1 := congrArg UInt8.toNat hHigh
  have h2 := congrArg UInt8.toNat hLow
  have hs := s.toNat_lt
  have hs' := s'.toNat_lt
  simp only [UInt16.toNat_toUInt8, UInt16.toNat_div, UInt16.toNat_mod, UInt16.reduceToNat] at h1 h2
  apply UInt16.toNat_inj.mp
  omega

theorem toIpv4Mapped_inj {v : Ipv4Addr} (h : ip.toIpv4Mapped = some v)
    (h' : ip'.toIpv4Mapped = some v) : ip = ip' := by
  unfold toIpv4Mapped at h h'
  split at h
  · split at h'
    · rename_i hm hm'
      rw [← h', Option.some.injEq, Ipv4Addr.mk.injEq] at h
      obtain ⟨h0, h1, h2, h3, h4, h5⟩ := hm
      obtain ⟨h0', h1', h2', h3', h4', h5'⟩ := hm'
      apply segments_inj
      simp only [segments, cons.injEq, and_true]
      exact ⟨h0.trans h0'.symm, h1.trans h1'.symm, h2.trans h2'.symm, h3.trans h3'.symm,
        h4.trans h4'.symm, h5.trans h5'.symm, bytes_inj h.1 h.2.1, bytes_inj h.2.2.1 h.2.2.2⟩
    · cases h'
  · cases h

structure Span where
  start : Nat
  len : Nat

def zeroes : List UInt16 → Nat → Span → Span → Span
  | [], _, _, longest => longest
  | segment :: rest, i, current, longest =>
    if segment = 0 then
      let current : Span := ⟨if current.len = 0 then i else current.start, current.len + 1⟩
      zeroes rest (i + 1) current (if current.len > longest.len then current else longest)
    else zeroes rest (i + 1) ⟨0, 0⟩ longest

def fmtSubslice (chunk : List UInt16) : List Char :=
  [':'].intercalate (chunk.map (fun s => Nat.toDigits 16 s.toNat))

def display (ip : Ipv6Addr) : List Char :=
  match ip.toIpv4Mapped with
  | some v4 => "::ffff:".toList ++ v4.display
  | none =>
    let z := zeroes ip.segments 0 ⟨0, 0⟩ ⟨0, 0⟩
    if z.len > 1 then
      fmtSubslice (ip.segments.take z.start) ++ "::".toList ++
        fmtSubslice (ip.segments.drop (z.start + z.len))
    else fmtSubslice ip.segments

def Span.Zero (z : Span) (l : List UInt16) : Prop :=
  ∃ before after, l = before ++ List.replicate z.len 0 ++ after ∧ before.length = z.start

theorem zeroes_zero (done todo : List UInt16) (current longest : Span)
    (hCurrent : current.len = 0 ∨ ∃ before, done = before ++ replicate current.len 0 ∧
      before.length = current.start)
    (hLongest : longest.len = 0 ∨ longest.Zero (done ++ todo)) :
    (zeroes todo done.length current longest).len = 0 ∨
      (zeroes todo done.length current longest).Zero (done ++ todo) := by
  induction todo generalizing done current longest with
  | nil => exact hLongest
  | cons segment todo ih =>
    have hAssoc : done ++ segment :: todo = (done ++ [segment]) ++ todo := by simp
    have hLength : done.length + 1 = (done ++ [segment]).length := by simp
    rw [zeroes, hLength, hAssoc]
    rw [hAssoc] at hLongest
    split
    · rename_i hZero
      subst hZero
      have hGrown : ∃ before, done ++ [0] = before ++ replicate (current.len + 1) 0 ∧
          before.length = if current.len = 0 then done.length else current.start := by
        rcases hCurrent with h | ⟨before, hDone, hStart⟩
        · exact ⟨done, by simp [h], by simp [h]⟩
        by_cases h : current.len = 0
        · exact ⟨done, by simp [h], by simp [h]⟩
        · refine ⟨before, ?_, by simp [h, hStart]⟩
          rw [hDone, append_assoc, replicate_succ']
      apply ih
      · exact Or.inr hGrown
      by_cases hMore : current.len + 1 > longest.len
      · obtain ⟨before, hDone, hStart⟩ := hGrown
        rw [if_pos hMore]
        exact Or.inr ⟨before, todo, by rw [hDone], hStart⟩
      · rw [if_neg hMore]
        exact hLongest
    · exact ih (done ++ [segment]) ⟨0, 0⟩ longest (Or.inl rfl) hLongest

theorem segments_eq_of_compressed (ip : Ipv6Addr) (hLen : (zeroes ip.segments 0 ⟨0, 0⟩ ⟨0, 0⟩).len > 1) :
    let z := zeroes ip.segments 0 ⟨0, 0⟩ ⟨0, 0⟩
    ip.segments = ip.segments.take z.start ++ replicate z.len 0 ++
      ip.segments.drop (z.start + z.len) := by
  intro z
  have hZero : z.Zero ip.segments := by
    rcases zeroes_zero [] ip.segments ⟨0, 0⟩ ⟨0, 0⟩ (Or.inl rfl) (Or.inl rfl) with h | h
    · exact absurd h (ne_of_gt (lt_of_lt_of_le zero_lt_one (le_of_lt hLen)))
    · exact h
  obtain ⟨before, after, hSegments, hStart⟩ := hZero
  have hTake : ip.segments.take z.start = before := by
    rw [hSegments, ← hStart, append_assoc, take_left]
  have hDrop : ip.segments.drop (z.start + z.len) = after := by
    rw [hSegments, ← hStart]
    apply drop_left'
    simp
  rw [hTake, hDrop]
  exact hSegments

def hexes (chunk : List UInt16) : List (List Char) := chunk.map (fun s => Nat.toDigits 16 s.toNat)

theorem hexes_inj (h : hexes chunk = hexes chunk') : chunk = chunk' := by
  refine map_injective_iff.mpr ?_ h
  intro s s' h
  exact UInt16.toNat_inj.mp (toDigits_inj (by decide) h)

theorem hexes_ne_nil (h : l ∈ hexes chunk) : l ≠ [] := by
  obtain ⟨s, _, rfl⟩ := mem_map.mp h
  exact toDigits_ne_nil

theorem hexes_not_mem (c : Char) (hc : ∀ d, d < 16 → c ≠ d.digitChar) (h : l ∈ hexes chunk) : c ∉ l := by
  obtain ⟨s, _, rfl⟩ := mem_map.mp h
  intro hMem
  obtain ⟨d, hd, hEq⟩ := mem_toDigits (by decide) hMem
  exact hc d hd hEq

def side (chunk : List UInt16) : List (List Char) :=
  if chunk = [] then [[]] else hexes chunk

theorem side_ne_nil (chunk : List UInt16) : side chunk ≠ [] := by
  unfold side
  split
  · simp
  · simpa [hexes] using ‹chunk ≠ []›

theorem intercalate_side (chunk : List UInt16) : [':'].intercalate (side chunk) = fmtSubslice chunk := by
  unfold side
  split
  · rename_i h
    subst h
    rfl
  · rfl

theorem side_not_mem (c : Char) (hc : ∀ d, d < 16 → c ≠ d.digitChar) (h : l ∈ side chunk) : c ∉ l := by
  unfold side at h
  split at h
  · rw [mem_singleton.mp h]
    exact not_mem_nil
  · exact hexes_not_mem c hc h

theorem side_inj (h : side chunk = side chunk') : chunk = chunk' := by
  unfold side at h
  split at h <;> split at h <;> rename_i hc hc'
  · rw [hc, hc']
  · exact absurd rfl (hexes_ne_nil (h ▸ mem_singleton_self ([] : List Char)))
  · exact absurd rfl (hexes_ne_nil (h ▸ mem_singleton_self ([] : List Char)))
  · exact hexes_inj h

/-- The fields of a compressed address: an empty field stands for the run of zeroes. -/
def compressed (front back : List UInt16) : List (List Char) := side front ++ [] :: side back

theorem intercalate_compressed (front back : List UInt16) : [':'].intercalate (compressed front back) =
      fmtSubslice front ++ "::".toList ++ fmtSubslice back := by
  have hEmpty : ([] : List Char) :: side back = [[]] ++ side back := rfl
  rw [compressed, intercalate_append ':' (side_ne_nil front) (by simp), hEmpty,
    intercalate_append ':' (by simp) (side_ne_nil back), intercalate_side, intercalate_side]
  simp

theorem hexes_append_inj {rest rest' : List (List Char)}
    (h : hexes chunk ++ [] :: rest = hexes chunk' ++ [] :: rest') : chunk = chunk' ∧ rest = rest' := by
  induction chunk generalizing chunk' with
  | nil =>
    cases chunk' with
    | nil => exact ⟨rfl, by simpa [hexes] using h⟩
    | cons s chunk' => exact absurd (cons.inj h).1.symm toDigits_ne_nil
  | cons s chunk ih =>
    cases chunk' with
    | nil => exact absurd (cons.inj h).1 toDigits_ne_nil
    | cons s' chunk' =>
      obtain ⟨hHead, hTail⟩ := cons.inj h
      obtain ⟨hChunk, hRest⟩ := ih hTail
      have hs := UInt16.toNat_inj.mp (toDigits_inj (by decide) hHead)
      exact ⟨by rw [hs, hChunk], hRest⟩

theorem compressed_inj {front back front' back' : List UInt16}
    (h : compressed front back = compressed front' back') : front = front' ∧ back = back' := by
  unfold compressed at h
  cases front with
  | nil =>
    cases front' with
    | nil => exact ⟨rfl, side_inj (by simpa [side] using h)⟩
    | cons s front' => exact absurd (cons.inj h).1.symm toDigits_ne_nil
  | cons s front =>
    cases front' with
    | nil => exact absurd (cons.inj h).1 toDigits_ne_nil
    | cons s' front' =>
      obtain ⟨hFront, hBack⟩ := hexes_append_inj h
      exact ⟨hFront, side_inj hBack⟩

theorem compressed_ne_hexes (front back chunk : List UInt16) : compressed front back ≠ hexes chunk := by
  intro h
  have hMem : [] ∈ compressed front back := mem_append_right _ mem_cons_self
  rw [h] at hMem
  exact hexes_ne_nil hMem rfl

def fields (ip : Ipv6Addr) : List (List Char) :=
  let z := zeroes ip.segments 0 ⟨0, 0⟩ ⟨0, 0⟩
  if z.len > 1 then compressed (ip.segments.take z.start) (ip.segments.drop (z.start + z.len))
  else hexes ip.segments

theorem display_eq_fields (h : ip.toIpv4Mapped = none) : ip.display = [':'].intercalate ip.fields := by
  unfold display fields
  rw [h]
  simp only
  split
  · exact (intercalate_compressed _ _).symm
  · rfl

theorem fields_ne_nil (ip : Ipv6Addr) : ip.fields ≠ [] := by
  unfold fields
  simp only
  split
  · simp [compressed]
  · simp [hexes, segments]

theorem fields_not_mem (c : Char) (hc : ∀ d, d < 16 → c ≠ d.digitChar) (h : l ∈ ip.fields) : c ∉ l := by
  unfold fields at h
  simp only at h
  split at h
  · rcases mem_append.mp h with h | h
    · exact side_not_mem c hc h
    rcases mem_cons.mp h with rfl | h
    · exact not_mem_nil
    · exact side_not_mem c hc h
  · exact hexes_not_mem c hc h

theorem fields_inj (h : ip.fields = ip'.fields) : ip = ip' := by
  apply segments_inj
  unfold fields at h
  simp only at h
  split at h <;> split at h <;> rename_i hLen hLen'
  · obtain ⟨hFront, hBack⟩ := compressed_inj h
    have hs := segments_eq_of_compressed ip hLen
    have hs' := segments_eq_of_compressed ip' hLen'
    simp only at hs hs'
    rw [hFront, hBack] at hs
    -- Both sides have eight segments, so equal outer parts leave runs of equal length.
    have hRun : (zeroes ip.segments 0 ⟨0, 0⟩ ⟨0, 0⟩).len = (zeroes ip'.segments 0 ⟨0, 0⟩ ⟨0, 0⟩).len := by
      have hCount := congrArg length hs
      have hCount' := congrArg length hs'
      have hEight : ip.segments.length = ip'.segments.length := rfl
      simp only [length_append, length_replicate] at hCount hCount'
      omega
    rw [hRun] at hs
    exact hs.trans hs'.symm
  · exact absurd h (compressed_ne_hexes _ _ _)
  · exact absurd h.symm (compressed_ne_hexes _ _ _)
  · exact hexes_inj h

theorem colon_ne_digit : ∀ d, d < 16 → ':' ≠ d.digitChar := by decide

theorem dot_ne_digit : ∀ d, d < 16 → '.' ≠ d.digitChar := by decide

theorem dot_not_mem_display (h : ip.toIpv4Mapped = none) : '.' ∉ ip.display := by
  rw [display_eq_fields h]
  intro hMem
  rcases mem_intercalate hMem with hMem | ⟨l, hl, hMem⟩
  · cases hMem
  · exact fields_not_mem '.' dot_ne_digit hl hMem

theorem display_mapped {v4 : Ipv4Addr} (h : ip.toIpv4Mapped = some v4) :
    ip.display = "::ffff:".toList ++ v4.display := by
  unfold display
  rw [h]

theorem display_inj (h : ip.display = ip'.display) : ip = ip' := by
  cases hm : ip.toIpv4Mapped with
  | some v4 =>
    cases hm' : ip'.toIpv4Mapped with
    | some v4' =>
      rw [display_mapped hm, display_mapped hm'] at h
      rw [Ipv4Addr.display_inj (append_cancel_left h)] at hm
      exact toIpv4Mapped_inj hm hm'
    | none =>
      exfalso
      apply dot_not_mem_display hm'
      rw [← h, display_mapped hm]
      exact mem_append_right _ v4.dot_mem_display
  | none =>
    cases hm' : ip'.toIpv4Mapped with
    | some v4' =>
      exfalso
      apply dot_not_mem_display hm
      rw [h, display_mapped hm']
      exact mem_append_right _ v4'.dot_mem_display
    | none =>
      rw [display_eq_fields hm, display_eq_fields hm'] at h
      exact fields_inj (intercalate_inj (fields_ne_nil ip) (fields_ne_nil ip')
        (fun _ => fields_not_mem ':' colon_ne_digit) (fun _ => fields_not_mem ':' colon_ne_digit) h)

end Ipv6Addr

def IpAddr.display : IpAddr → List Char
  | .v4 ip => ip.display
  | .v6 ip => ip.display

def IpAddr.toString (ip : IpAddr) : String := String.ofList ip.display

def SocketAddr.toString : SocketAddr → String
  | .v4 ip port => String.ofList (ip.display ++ ':' :: Nat.toDigits 10 port.toNat)
  | .v6 ip port _ scopeId =>
    let scope := if scopeId = 0 then [] else '%' :: Nat.toDigits 10 scopeId.toNat
    String.ofList ('[' :: ip.display ++ scope ++ "]:".toList ++ Nat.toDigits 10 port.toNat)

theorem Ipv6Addr.colon_mem_display (ip : Ipv6Addr) : ':' ∈ ip.display := by
  cases hm : ip.toIpv4Mapped with
  | some v4 =>
    rw [display_mapped hm]
    exact mem_append_left _ (by decide)
  | none =>
    unfold display
    rw [hm]
    simp only
    split
    · exact mem_append_left _ (mem_append_right _ (by decide))
    · simp [fmtSubslice, segments, intercalate]

theorem IpAddr.toString_inj {ip ip' : IpAddr} (h : ip.toString = ip'.toString) : ip = ip' := by
  have hDisplay := String.ofList_injective h
  cases ip with
  | v4 ip =>
    cases ip' with
    | v4 ip' => rw [Ipv4Addr.display_inj hDisplay]
    | v6 ip' =>
      have hEq : ip.display = ip'.display := hDisplay
      exact absurd (hEq ▸ ip'.colon_mem_display) ip.colon_not_mem_display
  | v6 ip =>
    cases ip' with
    | v4 ip' =>
      have hEq : ip.display = ip'.display := hDisplay
      exact absurd (hEq ▸ ip.colon_mem_display) ip'.colon_not_mem_display
    | v6 ip' => rw [Ipv6Addr.display_inj hDisplay]

example : (IpAddr.v6 ⟨0x2001, 0xdb8, 0, 0, 0, 0, 0, 1⟩).toString = "2001:db8::1" := by decide

end Turna.Net
