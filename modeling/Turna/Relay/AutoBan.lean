import Turna.Lib.HashMap
import Turna.Lib.Trace
import Turna.Relay.PeerFilter

/-! # Automatic bans

Offences are counted per source key in windows that share one start. A key whose count reaches the threshold of a
kind is banned until a fixed time. Both tables are bounded: an idle counter gives way to a new one, a live ban to
nothing.
-/

namespace Turna.Qos
open Net

def aggregationPrefix (ip : IpAddr) : IpAddr :=
  match Relay.normalizeIp ip with
  | .v4 ip => .v4 { ip with d := 0 }
  | .v6 ip => .v6 ⟨ip.s0, ip.s1, ip.s2, 0, 0, 0, 0, 0⟩

end Turna.Qos

namespace Turna.Relay
open Net Lib HashMap List Option Nat

inductive Offence where
  | authFailure
  | rateLimited
  | credentialLookup
  deriving DecidableEq, Repr

structure AutoBanSettings where
  authFailures : UInt32
  rateLimitViolations : UInt32
  credentialLookups : UInt32
  window : Nat
  ban : Nat
  prefixScope : Bool
  allow : List Cidr
  maxTracked : Nat
  maxBans : Nat

def asMillis (duration : Nat) : Nat := duration / 1000000 % 2 ^ 64

def unmap : IpAddr → IpAddr := normalizeIp

namespace AutoBanSettings

variable (settings : AutoBanSettings)

def threshold : Offence → Nat
  | .authFailure => settings.authFailures.toNat
  | .rateLimited => settings.rateLimitViolations.toNat
  | .credentialLookup => settings.credentialLookups.toNat

def key (ip : IpAddr) : IpAddr := if settings.prefixScope then Qos.aggregationPrefix ip else ip

def allowlisted (ip : IpAddr) : Bool := settings.allow.any (·.contains ip)

def windowMs : Nat := asMillis settings.window

def expiry (nowMs : Nat) : Nat := min (nowMs + asMillis settings.ban) (2 ^ 64 - 1)

end AutoBanSettings

structure OffenceCounter where
  windowStartMs : Nat
  lastMs : Nat
  auth : Nat
  rateLimited : Nat
  lookups : Nat

namespace OffenceCounter

def start (nowMs : Nat) : OffenceCounter := ⟨nowMs, nowMs, 0, 0, 0⟩

def slot (c : OffenceCounter) : Offence → Nat
  | .authFailure => c.auth
  | .rateLimited => c.rateLimited
  | .credentialLookup => c.lookups

def saturatingSucc (n : Nat) : Nat := min (n + 1) (2 ^ 32 - 1)

def bump (c : OffenceCounter) : Offence → OffenceCounter
  | .authFailure => { c with auth := saturatingSucc c.auth }
  | .rateLimited => { c with rateLimited := saturatingSucc c.rateLimited }
  | .credentialLookup => { c with lookups := saturatingSucc c.lookups }

def count (c : OffenceCounter) (windowMs : Nat) (offence : Offence) (nowMs : Nat) : OffenceCounter :=
  let c := if windowMs ≤ nowMs - c.windowStartMs then start nowMs else c
  { c with lastMs := nowMs }.bump offence

theorem slot_bump_le (c : OffenceCounter) (offence other : Offence) :
    (c.bump offence).slot other ≤ c.slot other + if offence = other then 1 else 0 := by
  cases offence <;> cases other <;> simp [bump, slot, saturatingSucc]

@[simp] theorem windowStartMs_bump (c : OffenceCounter) (offence : Offence) :
    (c.bump offence).windowStartMs = c.windowStartMs := by
  cases offence <;> rfl

end OffenceCounter

structure BanEvent where
  key : IpAddr
  offence : Offence
  count : Nat
  duration : Nat
  prefixScope : Bool

structure AutoBan where
  counters : HashMap IpAddr OffenceCounter
  /-- Key to expiry. -/
  bans : HashMap IpAddr Nat
  active : Nat
  bansTotal : Nat
  bansRefusedFull : Nat
  counterEvictions : Nat

namespace AutoBan

def new : AutoBan := ⟨.empty, .empty, 0, 0, 0, 0⟩

def idler (victim : Option (IpAddr × Nat)) (e : IpAddr × OffenceCounter) : Option (IpAddr × Nat) :=
  if victim.all (fun v => e.2.lastMs < v.2) then some (e.1, e.2.lastMs) else victim

def idlest (sample : List (IpAddr × OffenceCounter)) : Option (IpAddr × Nat) := sample.foldl idler none

def evictIdlestCounter (order : IterOrder) (s : AutoBan) : AutoBan :=
  match idlest ((order.visit s.counters.entries).take 8) with
  | some (k, _) =>
    if s.counters.contains k then
      { s with counters := s.counters.remove k, counterEvictions := s.counterEvictions + 1 }
    else s
  | none => s

variable (settings : AutoBanSettings)

def isBannedAt (s : AutoBan) (ip : IpAddr) (nowMs : Nat) : Bool :=
  let ip := unmap ip
  let live := match s.bans.get (settings.key ip) with
    | some expiry => decide (nowMs < expiry)
    | none => false
  live && !(settings.prefixScope && settings.allowlisted ip)

def isBanned (s : AutoBan) (ip : IpAddr) (nowMs : Nat) : Bool :=
  if s.active = 0 then false else s.isBannedAt settings ip nowMs

def sweepAt (s : AutoBan) (nowMs : Nat) : List IpAddr × AutoBan :=
  let expired := (s.bans.entries.filter (fun e => e.2 ≤ nowMs)).map Prod.fst
  (expired, { s with
    bans := s.bans.retain (fun _ expiry => nowMs < expiry)
    active := s.active - expired.length
    counters := s.counters.retain (fun _ c => nowMs - c.windowStartMs < settings.windowMs) })

def enter (s : AutoBan) (key : IpAddr) (nowMs : Nat) : AutoBan :=
  { s with
    bans := s.bans.insert key (settings.expiry nowMs)
    active := if s.bans.contains key then s.active else s.active + 1
    bansTotal := s.bansTotal + 1 }

/-- `false` when the table is full of live bans. -/
def impose (s : AutoBan) (key : IpAddr) (nowMs : Nat) : Bool × AutoBan :=
  if !s.bans.contains key ∧ settings.maxBans ≤ s.bans.len then
    let s := (s.sweepAt settings nowMs).2
    if settings.maxBans ≤ s.bans.len then (false, { s with bansRefusedFull := s.bansRefusedFull + 1 })
    else (true, s.enter settings key nowMs)
  else (true, s.enter settings key nowMs)

def makeRoom (s : AutoBan) (order : IterOrder) (key : IpAddr) : AutoBan :=
  if !s.counters.contains key ∧ settings.maxTracked ≤ s.counters.len then s.evictIdlestCounter order else s

def counted (s : AutoBan) (key : IpAddr) (offence : Offence) (nowMs : Nat) : OffenceCounter :=
  ((s.counters.get key).getD (.start nowMs)).count settings.windowMs offence nowMs

def recordAt (s : AutoBan) (order : IterOrder) (ip : IpAddr) (offence : Offence) (nowMs : Nat) :
    Option BanEvent × AutoBan :=
  let ip := unmap ip
  let threshold := settings.threshold offence
  if threshold = 0 ∨ settings.allowlisted ip then (none, s)
  else if s.isBannedAt settings ip nowMs then (none, s)
  else
    let key := settings.key ip
    let s := s.makeRoom settings order key
    let c := s.counted settings key offence nowMs
    let s := { s with counters := s.counters.insert key c }
    if c.slot offence < threshold then (none, s)
    else
      -- The counter goes, whether or not there is room for the ban.
      match { s with counters := s.counters.remove key }.impose settings key nowMs with
      | (false, s) => (none, s)
      | (true, s) => (some ⟨key, offence, c.slot offence, settings.ban, settings.prefixScope⟩, s)

end AutoBan

inductive BanCall where
  | record (order : IterOrder) (ip : IpAddr) (offence : Offence) (nowMs : Nat)
  | isBanned (ip : IpAddr) (nowMs : Nat)
  | sweep (nowMs : Nat)

def BanCall.nowMs : BanCall → Nat
  | .record _ _ _ nowMs => nowMs
  | .isBanned _ nowMs => nowMs
  | .sweep nowMs => nowMs

/-- An offence that was counted, and whether its key's counter started with it. -/
structure Offending where
  key : IpAddr
  offence : Offence
  nowMs : Nat
  started : Bool
  deriving DecidableEq

/-- From a log with the latest first. -/
def sinceStart (key : IpAddr) : List Offending → List Offending
  | [] => []
  | e :: log =>
    if e.key = key then
      if e.started then [e] else e :: sinceStart key log
    else sinceStart key log

/-- The table with the time of the last call and the offences counted so far. -/
structure Watched where
  table : AutoBan
  clock : Nat
  log : List Offending

namespace AutoBan

variable (settings : AutoBanSettings)

def counts (s : AutoBan) (ip : IpAddr) (offence : Offence) (nowMs : Nat) : Bool :=
  !(settings.threshold offence = 0 || settings.allowlisted (unmap ip)) && !s.isBannedAt settings ip nowMs

def starts (s : AutoBan) (key : IpAddr) (nowMs : Nat) : Bool :=
  (s.counters.get key).all (fun c => settings.windowMs ≤ nowMs - c.windowStartMs)

def offending (s : AutoBan) : BanCall → Option Offending
  | .record _ ip offence nowMs =>
    let key := settings.key (unmap ip)
    if s.counts settings ip offence nowMs then some ⟨key, offence, nowMs, s.starts settings key nowMs⟩ else none
  | .isBanned .. => none
  | .sweep _ => none

def answer (s : AutoBan) : BanCall → Option BanEvent × AutoBan
  | .record order ip offence nowMs => s.recordAt settings order ip offence nowMs
  | .isBanned _ _ => (none, s)
  | .sweep nowMs => (none, (s.sweepAt settings nowMs).2)

end AutoBan

namespace Watched

def new : Watched := ⟨.new, 0, []⟩

variable (settings : AutoBanSettings)

def apply (w : Watched) (call : BanCall) : Watched :=
  ⟨(w.table.answer settings call).2, call.nowMs, (w.table.offending settings call).toList ++ w.log⟩

end Watched

theorem unmap_unmap (ip : IpAddr) : unmap (unmap ip) = unmap ip := by
  cases ip with
  | v4 ip => rfl
  | v6 ip =>
    cases hMapped : ip.toIpv4Mapped with
    | none | some ip4 => simp only [unmap, normalizeIp, hMapped]

namespace AutoBan

variable {settings : AutoBanSettings} {s : AutoBan}

theorem isBannedAt_unmap (ip : IpAddr) (nowMs : Nat) :
    s.isBannedAt settings (unmap ip) nowMs = s.isBannedAt settings ip nowMs := by
  unfold isBannedAt
  rw [unmap_unmap]

/-! ## The two tables -/

theorem mem_foldl_idler {k : IpAddr} {last : Nat} (sample : List (IpAddr × OffenceCounter))
    (victim : Option (IpAddr × Nat)) (h : sample.foldl idler victim = some (k, last)) :
    k ∈ sample.map Prod.fst ∨ victim = some (k, last) := by
  induction sample generalizing victim with
  | nil => exact .inr h
  | cons e sample ih =>
    obtain hIn | hVictim := ih _ h
    · exact .inl (mem_cons_of_mem _ hIn)
    rw [idler] at hVictim
    split at hVictim
    · cases hVictim
      exact .inl mem_cons_self
    · exact .inr hVictim

theorem isSome_foldl_idler (sample : List (IpAddr × OffenceCounter)) {victim : Option (IpAddr × Nat)}
    (h : victim.isSome) : (sample.foldl idler victim).isSome := by
  induction sample generalizing victim with
  | nil => exact h
  | cons e sample ih =>
    refine ih ?_
    rw [idler]
    split
    · rfl
    · exact h

theorem exists_idlest {sample : List (IpAddr × OffenceCounter)} (h : sample ≠ []) :
    ∃ k c last, (k, c) ∈ sample ∧ idlest sample = some (k, last) := by
  cases sample with
  | nil => exact absurd rfl h
  | cons e sample =>
    obtain ⟨⟨k, last⟩, hVictim⟩ := isSome_iff_exists.mp (@isSome_foldl_idler sample (idler none e) rfl)
    obtain hIn | hNone := mem_foldl_idler (e :: sample) none hVictim
    · obtain ⟨⟨k', c⟩, hMem, rfl⟩ := mem_map.mp hIn
      exact ⟨k', c, last, hMem, hVictim⟩
    · cases hNone

theorem evictIdlestCounter_spec (order : IterOrder) (h : s.counters.len ≠ 0) :
    ∃ k c, s.counters.get k = some c ∧ s.evictIdlestCounter order =
      { s with counters := s.counters.remove k, counterEvictions := s.counterEvictions + 1 } := by
  have hEntries : (order.visit s.counters.entries).take 8 ≠ [] := by
    intro hNone
    obtain hEight | hEmpty := take_eq_nil_iff.mp hNone
    · cases hEight
    · exact h (len_eq_zero_iff.mpr (List.Perm.nil_eq (hEmpty ▸ order.perm _)).symm)
  obtain ⟨k, c, last, hIn, hVictim⟩ := exists_idlest hEntries
  have hGet := mem_entries_iff.mp (order.mem_visit.mp (mem_of_mem_take hIn))
  refine ⟨k, c, hGet, ?_⟩
  rw [evictIdlestCounter, hVictim]
  dsimp only
  rw [if_pos (by rw [HashMap.contains, hGet]; rfl)]

structure Roomy (settings : AutoBanSettings) (s : AutoBan) (key : IpAddr) (s' : AutoBan) : Prop where
  bans : s'.bans = s.bans
  active : s'.active = s.active
  same : s'.counters.get key = s.counters.get key
  other : ∀ k c, s'.counters.get k = some c → s.counters.get k = some c
  room : ∀ c, (s'.counters.insert key c).len ≤ settings.maxTracked

theorem makeRoom_spec (hTracked : 1 ≤ settings.maxTracked) (hLen : s.counters.len ≤ settings.maxTracked)
    (order : IterOrder) (key : IpAddr) : Roomy settings s key (s.makeRoom settings order key) := by
  rw [makeRoom]
  cases hGet : s.counters.get key with
  | some c =>
    rw [if_neg (by rw [HashMap.contains, hGet]; rintro ⟨hAbsent, -⟩; cases hAbsent)]
    refine ⟨rfl, rfl, rfl, fun _ _ h => h, fun c' => ?_⟩
    rw [len_insert_of_some _ hGet]
    exact hLen
  | none =>
    split
    · next hFull =>
      obtain ⟨k, c, hVictim, hEvict⟩ := evictIdlestCounter_spec (s := s) order (by omega)
      have hNe : key ≠ k := by
        rintro rfl
        rw [hGet] at hVictim
        cases hVictim
      have hLess := len_remove_of_some hVictim
      rw [hEvict]
      refine ⟨rfl, rfl, ?_, ?_, fun c' => ?_⟩
      · dsimp only
        rw [get_remove_ne _ hNe]
      · intro k' c' hGet'
        exact get_of_get_remove hGet'
      · dsimp only
        rw [len_insert_of_none _ (by rw [get_remove_ne _ hNe, hGet])]
        omega
    · next hRoom =>
      refine ⟨rfl, rfl, rfl, fun _ _ h => h, fun c' => ?_⟩
      rw [len_insert_of_none _ hGet]
      have hAbsent : (!s.counters.contains key) = true := by rw [HashMap.contains, hGet]; rfl
      exact Nat.lt_of_not_le fun hFull => hRoom ⟨hAbsent, hFull⟩

/-- Each is as before, or has expired and is gone, or is the one imposed, where no live ban was. -/
structure BanStep (settings : AutoBanSettings) (nowMs : Nat) (imposed : Option IpAddr) (s s' : AutoBan) : Prop where
  bans : ∀ k, s'.bans.get k = s.bans.get k ∨
    (s'.bans.get k = none ∧ ∃ e, s.bans.get k = some e ∧ e ≤ nowMs) ∨
    (imposed = some k ∧ (∀ e, s.bans.get k = some e → e ≤ nowMs) ∧ s'.bans.get k = some (settings.expiry nowMs))
  entered : ∀ k ∈ imposed, s'.bans.get k = some (settings.expiry nowMs)
  active : s.active = s.bans.len → s'.active = s'.bans.len
  bounded : s.bans.len ≤ settings.maxBans → s'.bans.len ≤ settings.maxBans

theorem BanStep.refl (nowMs : Nat) : BanStep settings nowMs none s s :=
  ⟨fun _ => .inl rfl, fun k hIn => absurd hIn (not_mem_none k), id, id⟩

variable {s' : AutoBan} {key : IpAddr} {nowMs : Nat}

theorem BanStep.of_eq (nowMs : Nat) (hBans : s'.bans = s.bans) (hActive : s'.active = s.active) :
    BanStep settings nowMs none s s' := by
  refine ⟨fun k => .inl (by rw [hBans]), fun k hIn => absurd hIn (not_mem_none k), fun h => ?_, fun h => ?_⟩
  · rw [hActive, hBans, h]
  · rw [hBans]
    exact h

theorem len_retain_add (m : HashMap IpAddr Nat) (nowMs : Nat) :
    (m.retain (fun _ expiry => nowMs < expiry)).len + (m.entries.filter (fun e => e.2 ≤ nowMs)).length = m.len := by
  have hLen : ∀ m : HashMap IpAddr Nat, m.len = m.entries.length := fun m => length_map _ |>.symm
  have hPast : (fun e : IpAddr × Nat => decide (e.2 ≤ nowMs)) = (fun e => !decide (nowMs < e.2)) := by
    funext e
    rw [← decide_not, decide_eq_decide, not_lt]
  rw [hLen, hLen m, entries_retain, hPast]
  exact (length_eq_length_filter_add _).symm

theorem banStep_sweepAt (nowMs : Nat) : BanStep settings nowMs none s (s.sweepAt settings nowMs).2 := by
  have hLen := len_retain_add s.bans nowMs
  refine ⟨fun k => ?_, fun k hIn => absurd hIn (not_mem_none k), fun h => ?_, fun h => ?_⟩
  · rw [sweepAt, get_retain]
    cases hGet : s.bans.get k with
    | none => exact .inl rfl
    | some e =>
      rw [filter_some]
      split
      · exact .inl rfl
      · next hGone => exact .inr (.inl ⟨rfl, e, rfl, by simpa using hGone⟩)
  · rw [sweepAt, h]
    dsimp only
    rw [length_map]
    omega
  · rw [sweepAt]
    dsimp only
    omega

theorem banStep_enter (hDead : ∀ e, s.bans.get key = some e → e ≤ nowMs)
    (hRoom : s.bans.contains key ∨ s.bans.len < settings.maxBans) :
    BanStep settings nowMs (some key) s (s.enter settings key nowMs) := by
  refine ⟨fun k => ?_, ?_, fun h => ?_, fun h => ?_⟩
  · rw [enter, HashMap.get_insert]
    split
    · next hKey =>
      subst hKey
      exact .inr (.inr ⟨rfl, hDead, rfl⟩)
    · exact .inl rfl
  · rintro k ⟨⟩
    exact HashMap.get_insert_self _ _ _
  all_goals
    rw [enter]
    cases hGet : s.bans.get key with
    | none =>
      have hAbsent : s.bans.contains key = false := by rw [HashMap.contains, hGet]; rfl
      rw [hAbsent] at hRoom
      rw [HashMap.len_insert_of_none _ hGet]
      first
      | rw [hAbsent, h]; rfl
      | exact hRoom.resolve_left (by decide)
    | some e =>
      rw [HashMap.len_insert_of_some _ hGet]
      first
      | rw [HashMap.contains, hGet, h]; rfl
      | exact h

theorem BanStep.trans {s1 s2 : AutoBan} {imposed : Option IpAddr} (h : BanStep settings nowMs none s s1)
    (h' : BanStep settings nowMs imposed s1 s2) : BanStep settings nowMs imposed s s2 := by
  refine ⟨fun k => ?_, h'.entered, h'.active ∘ h.active, h'.bounded ∘ h.bounded⟩
  obtain hSame | ⟨hGone, e, hOld, hPast⟩ | ⟨hNone, -⟩ := h.bans k
  · rw [← hSame]
    exact h'.bans k
  · obtain hSame | ⟨-, e', hSome, -⟩ | ⟨hKey, -, hNew⟩ := h'.bans k
    · exact .inr (.inl ⟨hSame.trans hGone, e, hOld, hPast⟩)
    · rw [hGone] at hSome
      cases hSome
    · refine .inr (.inr ⟨hKey, fun e' hOld' => ?_, hNew⟩)
      rw [hOld] at hOld'
      cases hOld'
      exact hPast
  · cases hNone

structure Dropped (s s' : AutoBan) : Prop where
  get : ∀ k c, s'.counters.get k = some c → s.counters.get k = some c
  len : s'.counters.len ≤ s.counters.len

theorem dropped_sweepAt (nowMs : Nat) : Dropped s (s.sweepAt settings nowMs).2 := by
  refine ⟨fun k c hGet => ?_, length_filter_le _ _⟩
  rw [sweepAt, get_retain] at hGet
  exact (filter_eq_some_iff.mp hGet).1

theorem impose_spec (hDead : ∀ e, s.bans.get key = some e → e ≤ nowMs)
    {ok : Bool} (h : s.impose settings key nowMs = (ok, s')) :
    BanStep settings nowMs (if ok then some key else none) s s' ∧ Dropped s s' := by
  have hSwept := @dropped_sweepAt settings s nowMs
  rw [impose] at h
  split at h
  · next hFull =>
    dsimp only at h
    split at h
    · cases h
      exact ⟨(banStep_sweepAt nowMs).trans (.of_eq nowMs rfl rfl), hSwept.get, hSwept.len⟩
    next hRoom =>
    cases h
    refine ⟨(banStep_sweepAt nowMs).trans (banStep_enter ?_ (.inr (Nat.lt_of_not_le hRoom))), hSwept.get, hSwept.len⟩
    intro e hGet
    rw [sweepAt, get_retain] at hGet
    exact hDead e (filter_eq_some_iff.mp hGet).1
  · next hRoom =>
    cases h
    refine ⟨banStep_enter hDead ?_, ⟨fun _ _ h => h, le_refl _⟩⟩
    cases hKnown : s.bans.contains key with
    | true => exact .inl rfl
    | false => exact .inr (Nat.lt_of_not_le fun hFull => hRoom ⟨by rw [hKnown]; rfl, hFull⟩)

def CounterStep (settings : AutoBanSettings) (counted : Option Offending) (s s' : AutoBan) : Prop :=
  ∀ k c, s'.counters.get k = some c →
    (s.counters.get k = some c ∧ ∀ e ∈ counted, e.key ≠ k) ∨
    ∃ e ∈ counted, e.key = k ∧ c = s.counted settings k e.offence e.nowMs

theorem counted_congr (h : s'.counters.get key = s.counters.get key)
    (offence : Offence) (nowMs : Nat) : s'.counted settings key offence nowMs = s.counted settings key offence nowMs := by
  rw [counted, counted, h]

structure Answered (settings : AutoBanSettings) (s : AutoBan) (call : BanCall) (event : Option BanEvent)
    (s' : AutoBan) : Prop where
  bans : BanStep settings call.nowMs (event.map (·.key)) s s'
  counters : CounterStep settings (s.offending settings call) s s'
  tracked : s'.counters.len ≤ settings.maxTracked
  earned : ∀ ev ∈ event, ∃ e ∈ s.offending settings call, e.key = ev.key ∧ e.nowMs = call.nowMs ∧
    settings.threshold e.offence ≤ (s.counted settings ev.key e.offence e.nowMs).slot e.offence

theorem Answered.of_quiet {call : BanCall} (hBans : BanStep settings call.nowMs none s s')
    (hQuiet : s.offending settings call = none) (hDrops : ∀ k c, s'.counters.get k = some c → s.counters.get k = some c)
    (hLen : s'.counters.len ≤ settings.maxTracked) : Answered settings s call none s' := by
  refine ⟨hBans, fun k c hGet => .inl ⟨hDrops k c hGet, ?_⟩, hLen, fun ev hEv => absurd hEv (not_mem_none ev)⟩
  rw [hQuiet]
  exact fun e hIn => absurd hIn (not_mem_none e)

theorem le_of_counts {ip : IpAddr} {offence : Offence} {e : Nat} (h : s.counts settings ip offence nowMs = true)
    (hGet : s.bans.get (settings.key (unmap ip)) = some e) : e ≤ nowMs := by
  simp only [counts, isBannedAt, hGet, Bool.and_eq_true, Bool.not_eq_true', Bool.or_eq_false_iff, Bool.and_eq_false_iff,
    decide_eq_false_iff_not, Bool.not_eq_false'] at h
  obtain ⟨⟨-, hListed⟩, hDead | ⟨-, hAllowed⟩⟩ := h
  · exact Nat.le_of_not_lt hDead
  · rw [hListed] at hAllowed
    cases hAllowed

section Record

variable (order : IterOrder) (ip : IpAddr) (offence : Offence) (nowMs : Nat)

/-- The ways through `record_at`. -/
inductive Recorded (settings : AutoBanSettings) (s : AutoBan) : Option BanEvent × AutoBan → Prop where
  | ignored (hNot : s.counts settings ip offence nowMs = false) : Recorded settings s (none, s)
  | counted {r : AutoBan} {key : IpAddr} (hCounts : s.counts settings ip offence nowMs = true)
      (hKey : key = settings.key (unmap ip)) (hRoom : r = s.makeRoom settings order key)
      (hFew : (r.counted settings key offence nowMs).slot offence < settings.threshold offence) :
      Recorded settings s
        (none, { r with counters := r.counters.insert key (r.counted settings key offence nowMs) })
  | struck {r s' : AutoBan} {key : IpAddr} {ok : Bool} (hCounts : s.counts settings ip offence nowMs = true)
      (hKey : key = settings.key (unmap ip)) (hRoom : r = s.makeRoom settings order key)
      (hMany : settings.threshold offence ≤ (r.counted settings key offence nowMs).slot offence)
      (hImpose : { r with counters := (r.counters.insert key (r.counted settings key offence nowMs)).remove key }.impose
        settings key nowMs = (ok, s')) :
      Recorded settings s (if ok then some ⟨key, offence, (r.counted settings key offence nowMs).slot offence,
        settings.ban, settings.prefixScope⟩ else none, s')

theorem recordAt_cases : Recorded order ip offence nowMs settings s (s.recordAt settings order ip offence nowMs) := by
  rw [recordAt]
  dsimp only
  by_cases hExempt : settings.threshold offence = 0 ∨ settings.allowlisted (unmap ip)
  · rw [if_pos hExempt]
    exact .ignored (by cases hExempt <;> simp [counts, *])
  rw [if_neg hExempt, isBannedAt_unmap]
  by_cases hBanned : s.isBannedAt settings ip nowMs = true
  · rw [if_pos hBanned]
    exact .ignored (by simp [counts, hBanned])
  have hCounts : s.counts settings ip offence nowMs = true := by
    rw [not_or] at hExempt
    simp [counts, *]
  rw [if_neg hBanned]
  split
  · next hFew => exact .counted hCounts rfl rfl hFew
  next hMany =>
  split
  · next s' hImpose => exact .struck hCounts rfl rfl (Nat.le_of_not_lt hMany) hImpose
  · next s' hImpose => exact .struck hCounts rfl rfl (Nat.le_of_not_lt hMany) hImpose

theorem answered_recordAt (hTracked : 1 ≤ settings.maxTracked) (hLen : s.counters.len ≤ settings.maxTracked) :
    Answered settings s (.record order ip offence nowMs) (s.recordAt settings order ip offence nowMs).1
      (s.recordAt settings order ip offence nowMs).2 := by
  have hOffending : s.counts settings ip offence nowMs = true → s.offending settings (.record order ip offence nowMs) =
      some ⟨settings.key (unmap ip), offence, nowMs, s.starts settings (settings.key (unmap ip)) nowMs⟩ := by
    intro hCounts
    rw [offending, hCounts]
    rfl
  generalize hResult : s.recordAt settings order ip offence nowMs = result
  have hCase := hResult ▸ @recordAt_cases settings s order ip offence nowMs
  cases hCase with
  | ignored hNot =>
    exact .of_quiet (.refl nowMs) (by rw [offending, hNot]; rfl) (fun _ _ h => h) hLen
  | @counted r key hCounts hKey hRoom hFew =>
    have hSpec : Roomy settings s key r := hRoom ▸ makeRoom_spec hTracked hLen order key
    rw [counted_congr hSpec.same]
    refine ⟨.of_eq nowMs hSpec.bans hSpec.active, fun k c hGet => ?_, hSpec.room _,
      fun ev hEv => absurd hEv (not_mem_none ev)⟩
    rw [get_insert] at hGet
    rw [hOffending hCounts]
    split at hGet
    · next hSame =>
      cases hGet
      exact .inr ⟨_, rfl, (hSame.trans hKey).symm, by rw [hSame]⟩
    next hOther =>
    refine .inl ⟨hSpec.other k c hGet, ?_⟩
    rintro e ⟨⟩ rfl
    exact hOther hKey.symm
  | @struck r s' key ok hCounts hKey hRoom hMany hImpose =>
    have hSpec : Roomy settings s key r := hRoom ▸ makeRoom_spec hTracked hLen order key
    have hDead : ∀ e, r.bans.get key = some e → e ≤ nowMs := by
      intro e hGet
      rw [hSpec.bans, hKey] at hGet
      exact le_of_counts hCounts hGet
    obtain ⟨hBans, hDropped⟩ := impose_spec (by exact hDead) hImpose
    rw [counted_congr hSpec.same] at hMany hDropped
    refine ⟨?_, fun k c hGet => ?_, ?_, ?_⟩
    · have hTrans := BanStep.trans (.of_eq nowMs (by exact hSpec.bans) (by exact hSpec.active)) hBans
      cases ok <;> exact hTrans
    · have hOld := hDropped.get k c hGet
      rw [get_remove, get_insert] at hOld
      split at hOld
      · cases hOld
      next hOther =>
      refine .inl ⟨hSpec.other k c hOld, ?_⟩
      rw [hOffending hCounts]
      rintro e ⟨⟩ rfl
      exact hOther hKey.symm
    · have hRoom := hSpec.room (s.counted settings key offence nowMs)
      have hLess := len_remove_of_some (r.counters.get_insert_self key (s.counted settings key offence nowMs))
      have hSwept := hDropped.len
      dsimp only at hSwept ⊢
      omega
    · intro ev hEv
      cases ok with
      | false => cases hEv
      | true =>
        cases hEv
        exact ⟨_, hOffending hCounts, hKey.symm, rfl, hMany⟩

end Record

theorem answered (hTracked : 1 ≤ settings.maxTracked) (hLen : s.counters.len ≤ settings.maxTracked)
    (call : BanCall) : Answered settings s call (s.answer settings call).1 (s.answer settings call).2 := by
  cases call with
  | record order ip offence nowMs => exact answered_recordAt order ip offence nowMs hTracked hLen
  | isBanned ip nowMs => exact .of_quiet (.refl nowMs) rfl (fun _ _ h => h) hLen
  | sweep nowMs =>
    have hSwept := @dropped_sweepAt settings s nowMs
    exact .of_quiet (banStep_sweepAt nowMs) rfl hSwept.get (le_trans hSwept.len hLen)

end AutoBan

/-! ## Runs -/

/-- It starts with its first offence, all fall into its window, and none is counted that is not there. -/
structure Explains (settings : AutoBanSettings) (log : List Offending) (start : Nat) (slot : Offence → Nat) : Prop where
  first : ∃ e, log.getLast? = some e ∧ e.started = true ∧ e.nowMs = start
  within : ∀ e ∈ log, start ≤ e.nowMs ∧ 1000000 * (e.nowMs - start) < settings.window
  counts : ∀ offence, slot offence ≤ (log.filter (fun e => e.offence = offence)).length

structure Orderly (settings : AutoBanSettings) (w : Watched) : Prop where
  active : w.table.active = w.table.bans.len
  bans : w.table.bans.len ≤ settings.maxBans
  tracked : w.table.counters.len ≤ settings.maxTracked
  listed : settings.prefixScope = false → ∀ k e, w.table.bans.get k = some e → settings.allowlisted k = false
  explained : ∀ k c, w.table.counters.get k = some c →
    c.windowStartMs ≤ w.clock ∧ Explains settings (sinceStart k w.log) c.windowStartMs c.slot

section Runs

variable {settings : AutoBanSettings} {w : Watched}

theorem elapsed_lt_window (hWindow : 0 < settings.window) {elapsed : Nat}
    (h : elapsed = 0 ∨ elapsed < settings.windowMs) : 1000000 * elapsed < settings.window := by
  obtain rfl | hLess := h
  · exact hWindow
  · have hTrunc : settings.windowMs ≤ settings.window / 1000000 := mod_le _ _
    omega

variable {s : AutoBan} {key ip : IpAddr} {nowMs expiry : Nat} {call : BanCall}

theorem AutoBan.counted_of_starts {offence : Offence} (h : s.starts settings key nowMs = true) :
    s.counted settings key offence nowMs = (OffenceCounter.start nowMs).bump offence := by
  rw [starts] at h
  rw [counted, OffenceCounter.count]
  cases hGet : s.counters.get key with
  | none =>
    dsimp only [getD_none]
    rw [ite_self]
    rfl
  | some c =>
    rw [hGet, all_some, decide_eq_true_eq] at h
    dsimp only [getD_some]
    rw [if_pos h]
    rfl

theorem AutoBan.counted_of_not_starts (h : s.starts settings key nowMs = false) (offence : Offence) :
    ∃ c, s.counters.get key = some c ∧ nowMs - c.windowStartMs < settings.windowMs ∧
      s.counted settings key offence nowMs = { c with lastMs := nowMs }.bump offence := by
  rw [starts] at h
  cases hGet : s.counters.get key with
  | none =>
    rw [hGet] at h
    cases h
  | some c =>
    rw [hGet, all_some, decide_eq_false_iff_not] at h
    refine ⟨c, rfl, Nat.lt_of_not_le h, ?_⟩
    rw [counted, OffenceCounter.count, hGet]
    dsimp only [getD_some]
    rw [if_neg h]

theorem length_filter_cons (e : Offending) (log : List Offending) (offence : Offence) :
    ((e :: log).filter (fun e => e.offence = offence)).length =
      (log.filter (fun e => e.offence = offence)).length + if e.offence = offence then 1 else 0 := by
  rw [filter_cons]
  split <;> simp_all

theorem Orderly.counted (h : Orderly settings w) (hWindow : 0 < settings.window) (key : IpAddr) (offence : Offence)
    {nowMs : Nat} (hTime : w.clock ≤ nowMs) :
    (w.table.counted settings key offence nowMs).windowStartMs ≤ nowMs ∧
    Explains settings (sinceStart key (⟨key, offence, nowMs, w.table.starts settings key nowMs⟩ :: w.log))
      (w.table.counted settings key offence nowMs).windowStartMs
      (w.table.counted settings key offence nowMs).slot := by
  rw [sinceStart, if_pos rfl]
  cases hStarts : w.table.starts settings key nowMs with
  | true =>
    rw [AutoBan.counted_of_starts hStarts, OffenceCounter.windowStartMs_bump, if_pos rfl]
    refine ⟨le_refl _, ⟨_, rfl, rfl, rfl⟩, fun e hIn => ?_, fun other => ?_⟩
    · rw [mem_singleton.mp hIn]
      exact ⟨Nat.le_refl _, elapsed_lt_window hWindow (.inl (Nat.sub_self _))⟩
    refine le_trans (OffenceCounter.slot_bump_le _ _ _) ?_
    rw [length_filter_cons]
    exact Nat.add_le_add_right (by cases other <;> exact Nat.zero_le _) _
  | false =>
    obtain ⟨c, hGet, hElapsed, hCounted⟩ := AutoBan.counted_of_not_starts hStarts offence
    obtain ⟨hStart, ⟨first, hFirst, hFlag, hNow⟩, hWithin, hCounts⟩ := h.explained key c hGet
    rw [hCounted, OffenceCounter.windowStartMs_bump, if_neg (by exact Bool.false_ne_true)]
    refine ⟨le_trans hStart hTime, ⟨first, ?_, hFlag, hNow⟩, fun e hIn => ?_, fun other => ?_⟩
    · rw [getLast?_cons, hFirst]
      rfl
    · obtain rfl | hIn := mem_cons.mp hIn
      · exact ⟨le_trans hStart hTime, elapsed_lt_window hWindow (.inr hElapsed)⟩
      · exact hWithin e hIn
    · refine le_trans (OffenceCounter.slot_bump_le _ _ _) ?_
      rw [length_filter_cons]
      refine Nat.add_le_add_right (Nat.le_trans ?_ (hCounts other)) _
      cases other <;> exact le_refl _

theorem sinceStart_of_ne {e : Offending} (h : e.key ≠ key) (log : List Offending) :
    sinceStart key (e :: log) = sinceStart key log := by
  rw [sinceStart, if_neg h]

theorem AutoBan.offending_spec {e : Offending} (h : e ∈ s.offending settings call) :
    e.nowMs = call.nowMs ∧ e.started = s.starts settings e.key call.nowMs ∧ ∃ ip, e.key = settings.key (unmap ip) ∧
      settings.allowlisted (unmap ip) = false := by
  cases call with
  | record order ip offence nowMs =>
    rw [offending] at h
    split at h
    · next hCounts =>
      cases h
      simp only [counts, Bool.and_eq_true, Bool.not_eq_true', Bool.or_eq_false_iff] at hCounts
      exact ⟨rfl, rfl, ip, rfl, hCounts.1.2⟩
    · cases h
  | isBanned ip nowMs | sweep nowMs => cases h

theorem Orderly.apply (h : Orderly settings w) (hTracked : 1 ≤ settings.maxTracked) (hWindow : 0 < settings.window)
    (hTime : w.clock ≤ call.nowMs) : Orderly settings (w.apply settings call) := by
  have hAnswered := w.table.answered hTracked h.tracked call
  refine ⟨hAnswered.bans.active h.active, hAnswered.bans.bounded h.bans, hAnswered.tracked, ?_, ?_⟩
  · intro hScope k e hGet
    obtain hSame | ⟨hGone, -⟩ | ⟨hImposed, -, -⟩ := hAnswered.bans.bans k
    · exact h.listed hScope k e (hSame ▸ hGet)
    · rw [Watched.apply, hGone] at hGet
      cases hGet
    · obtain ⟨ev, hEv, rfl⟩ := map_eq_some_iff.mp hImposed
      obtain ⟨e', hIn, hKey, -⟩ := hAnswered.earned ev hEv
      obtain ⟨-, -, ip, hIp, hListed⟩ := AutoBan.offending_spec hIn
      rw [← hKey, hIp, AutoBanSettings.key, if_neg (by rw [hScope]; decide)]
      exact hListed
  · intro k c hGet
    obtain ⟨hOld, hOther⟩ | ⟨e, hIn, hKey, hNew⟩ := hAnswered.counters k c hGet
    · obtain ⟨hStart, hExplains⟩ := h.explained k c hOld
      refine ⟨le_trans hStart hTime, ?_⟩
      cases hLog : w.table.offending settings call with
      | none =>
        rw [Watched.apply, hLog]
        exact hExplains
      | some e =>
        rw [Watched.apply, hLog]
        exact (sinceStart_of_ne (hOther e hLog) w.log).symm ▸ hExplains
    · obtain ⟨hNow, hStarts, -⟩ := AutoBan.offending_spec hIn
      have hCounted := h.counted hWindow k e.offence hTime
      rw [Watched.apply, hIn, hNew, hNow]
      rw [← hKey, ← hStarts] at hCounted
      obtain ⟨key, offence, nowMs, started⟩ := e
      subst hKey
      cases hNow
      exact hCounted

theorem Orderly.new (settings : AutoBanSettings) : Orderly settings Watched.new := by
  refine ⟨rfl, zero_le _, zero_le _, fun _ k e hGet => ?_, fun k c hGet => ?_⟩
  all_goals
    rw [Watched.new, AutoBan.new, get_empty] at hGet
    cases hGet

def InOrder (w : Watched) (call : BanCall) : Prop := w.clock ≤ call.nowMs

/-- The last of as many of its kind as its threshold, all in the window of the counter. -/
def Earned (settings : AutoBanSettings) (e : Offending) (log : List Offending) : Prop :=
  ∃ first, (sinceStart e.key (e :: log)).getLast? = some first ∧ first.started = true ∧
    settings.threshold e.offence ≤ ((sinceStart e.key (e :: log)).filter (fun e' => e'.offence = e.offence)).length ∧
    ∀ e' ∈ sinceStart e.key (e :: log),
      first.nowMs ≤ e'.nowMs ∧ 1000000 * (e'.nowMs - first.nowMs) < settings.window

/-- A ban is imposed on the key again, once the ban until `expiry` is over. -/
def ImposedAgain (settings : AutoBanSettings) (w : Watched) (key : IpAddr) (expiry : Nat) (more : List BanCall) : Prop :=
  ∃ before call after, more = before ++ call :: after ∧ expiry ≤ call.nowMs ∧
    ∃ ev ∈ ((Trace.run (Watched.apply settings) w before).table.answer settings call).1, ev.key = key

structure BanContract (settings : AutoBanSettings) (w : Watched) : Prop where
  active : w.table.active = w.table.bans.len
  fastExit : ∀ ip nowMs, w.table.isBanned settings ip nowMs = w.table.isBannedAt settings ip nowMs
  bans : w.table.bans.len ≤ settings.maxBans
  tracked : w.table.counters.len ≤ settings.maxTracked
  allowlisted : ∀ ip, settings.allowlisted (unmap ip) = true →
    (∀ nowMs, w.table.isBannedAt settings ip nowMs = false) ∧
      ∀ order offence nowMs, w.table.recordAt settings order ip offence nowMs = (none, w.table)
  /-- The next call leaves a key newly banned only by imposing the ban. -/
  imposed : ∀ call, InOrder w call → ∀ key expiry, (w.apply settings call).table.bans.get key = some expiry →
    w.table.bans.get key = some expiry ∨ ∃ ev ∈ (w.table.answer settings call).1, ev.key = key
  /-- A ban that the next call imposes is earned, and lasts until its expiry. -/
  earned : ∀ call, InOrder w call → ∀ ev ∈ (w.table.answer settings call).1,
    (∃ e ∈ w.table.offending settings call, e.key = ev.key ∧ Earned settings e w.log) ∧
      (w.apply settings call).table.bans.get ev.key = some (settings.expiry call.nowMs)
  /-- A ban is in force until its expiry and no longer, whatever is called. -/
  inForce : ∀ key expiry, w.table.bans.get key = some expiry →
    ∀ more, Trace.Allowed (Watched.apply settings) InOrder w more → ImposedAgain settings w key expiry more ∨
      ∀ ip nowMs, settings.key (unmap ip) = key → (settings.prefixScope && settings.allowlisted (unmap ip)) = false →
        (Trace.run (Watched.apply settings) w more).clock ≤ nowMs →
        (Trace.run (Watched.apply settings) w more).table.isBannedAt settings ip nowMs = decide (nowMs < expiry)
  mapped : ∀ ip ip4, Ipv6Addr.toIpv4Mapped ip = some ip4 →
    (∀ nowMs, w.table.isBannedAt settings (.v6 ip) nowMs = w.table.isBannedAt settings (.v4 ip4) nowMs) ∧
      ∀ order offence nowMs, w.table.recordAt settings order (.v6 ip) offence nowMs =
        w.table.recordAt settings order (.v4 ip4) offence nowMs

theorem Orderly.not_banned (h : Orderly settings w) (hListed : settings.allowlisted (unmap ip) = true)
    (nowMs : Nat) : w.table.isBannedAt settings ip nowMs = false := by
  rw [AutoBan.isBannedAt, hListed, Bool.and_true]
  cases hScope : settings.prefixScope with
  | true => rw [Bool.not_true, Bool.and_false]
  | false =>
    cases hGet : w.table.bans.get (settings.key (unmap ip)) with
    | none => rfl
    | some e =>
      have hOther := h.listed hScope _ e hGet
      rw [AutoBanSettings.key, if_neg (by rw [hScope]; decide), hListed] at hOther
      cases hOther

/-- The ban of a key is the one until `expiry`, or that one is over and none has followed. -/
def Lapses (w : Watched) (key : IpAddr) (expiry : Nat) : Prop :=
  w.table.bans.get key = some expiry ∨ (w.table.bans.get key = none ∧ expiry ≤ w.clock)

theorem Lapses.apply (h : Lapses w key expiry) (hTime : InOrder w call) {event : Option BanEvent}
    (hStep : AutoBan.BanStep settings call.nowMs (event.map (·.key)) w.table (w.apply settings call).table) :
    Lapses (w.apply settings call) key expiry ∨ (expiry ≤ call.nowMs ∧ ∃ ev ∈ event, ev.key = key) := by
  obtain hSame | ⟨hGone, e, hOld, hPast⟩ | ⟨hImposed, hDead, -⟩ := hStep.bans key
  · obtain hBan | ⟨hNone, hOver⟩ := h
    · exact .inl (.inl (hSame.trans hBan))
    · exact .inl (.inr ⟨hSame.trans hNone, le_trans hOver hTime⟩)
  · refine .inl (.inr ⟨hGone, ?_⟩)
    obtain hBan | ⟨hNone, hOver⟩ := h
    · rw [hOld] at hBan
      cases hBan
      exact hPast
    · exact le_trans hOver hTime
  · obtain ⟨ev, hEv, hKey⟩ := map_eq_some_iff.mp hImposed
    refine .inr ⟨?_, ev, hEv, hKey⟩
    obtain hBan | ⟨hNone, hOver⟩ := h
    · exact hDead expiry hBan
    · exact le_trans hOver hTime

theorem Orderly.lapses (hTracked : 1 ≤ settings.maxTracked) (hWindow : 0 < settings.window)
    {more : List BanCall} (h : Orderly settings w) (hBan : Lapses w key expiry)
    (hMore : Trace.Allowed (Watched.apply settings) InOrder w more) :
    ImposedAgain settings w key expiry more ∨ Lapses (Trace.run (Watched.apply settings) w more) key expiry := by
  induction more generalizing w with
  | nil => exact .inr hBan
  | cons call more ih =>
    obtain ⟨hTime, hRest⟩ := hMore
    obtain hLater | ⟨hOver, hEvent⟩ := hBan.apply hTime (w.table.answered hTracked h.tracked call).bans
    · obtain ⟨before, call', after, rfl, hAgain⟩ | hEnd := ih (h.apply hTracked hWindow hTime) hLater hRest
      · exact .inl ⟨call :: before, call', after, rfl, hAgain⟩
      · exact .inr hEnd
    · exact .inl ⟨[], call, more, rfl, hOver, hEvent⟩

theorem Lapses.isBannedAt (h : Lapses w key expiry)
    (hKey : settings.key (unmap ip) = key) (hExempt : (settings.prefixScope && settings.allowlisted (unmap ip)) = false)
    (hTime : w.clock ≤ nowMs) : w.table.isBannedAt settings ip nowMs = decide (nowMs < expiry) := by
  rw [AutoBan.isBannedAt, hExempt, hKey, Bool.not_false, Bool.and_true]
  obtain hBan | ⟨hNone, hOver⟩ := h
  · rw [hBan]
  · rw [hNone]
    exact (decide_eq_false (not_lt.mpr (le_trans hOver hTime))).symm

theorem Orderly.earned (h : Orderly settings w) (hTracked : 1 ≤ settings.maxTracked) (hWindow : 0 < settings.window)
    (hTime : InOrder w call) {ev : BanEvent} (hEv : ev ∈ (w.table.answer settings call).1) :
    ∃ e ∈ w.table.offending settings call, e.key = ev.key ∧ Earned settings e w.log := by
  obtain ⟨e, hIn, hKey, hNow, hMany⟩ := (w.table.answered hTracked h.tracked call).earned ev hEv
  obtain ⟨-, hStarts, -⟩ := AutoBan.offending_spec hIn
  refine ⟨e, hIn, hKey, ?_⟩
  rw [← hKey] at hMany
  obtain ⟨key, offence, nowMs, started⟩ := e
  dsimp only at hNow hStarts
  subst hNow hStarts
  obtain ⟨-, ⟨first, hFirst, hFlag, hStart⟩, hWithin, hCounts⟩ := h.counted hWindow key offence hTime
  refine ⟨first, hFirst, hFlag, le_trans hMany (hCounts offence), fun e' hIn' => ?_⟩
  rw [hStart]
  exact hWithin e' hIn'

theorem recordAt_of_unmap {ip' : IpAddr} (h : unmap ip = unmap ip') (order : IterOrder)
    (offence : Offence) (nowMs : Nat) :
    s.recordAt settings order ip offence nowMs = s.recordAt settings order ip' offence nowMs := by
  unfold AutoBan.recordAt
  rw [h]

/-- The contract holds after every sequence of calls at non-decreasing times. -/
theorem auto_ban_sound (settings : AutoBanSettings) (hTracked : 1 ≤ settings.maxTracked)
    (hWindow : 0 < settings.window) (calls : List BanCall)
    (hCalls : Trace.Allowed (Watched.apply settings) InOrder .new calls) :
    BanContract settings (Trace.run (Watched.apply settings) .new calls) := by
  have h : Orderly settings (Trace.run (Watched.apply settings) .new calls) :=
    hCalls.invariant _ (fun w call h hTime => h.apply hTracked hWindow hTime) (.new settings)
  generalize Trace.run (Watched.apply settings) .new calls = w at h
  refine ⟨h.active, fun ip nowMs => ?_, h.bans, h.tracked, fun ip hListed => ⟨h.not_banned hListed, ?_⟩, ?_, ?_, ?_, ?_⟩
  · rw [AutoBan.isBanned]
    split
    · next hNone =>
      have hGet := HashMap.get_of_len_zero (h.active.symm.trans hNone) (settings.key (unmap ip))
      rw [AutoBan.isBannedAt, hGet]
      rfl
    · rfl
  · intro order offence nowMs
    rw [AutoBan.recordAt, if_pos (.inr hListed)]
  · intro call hTime key expiry hGet
    obtain hSame | ⟨hGone, -⟩ | ⟨hImposed, -, -⟩ := (w.table.answered hTracked h.tracked call).bans.bans key
    · exact .inl (hSame.symm.trans hGet)
    · rw [Watched.apply, hGone] at hGet
      cases hGet
    · exact .inr (Option.map_eq_some_iff.mp hImposed)
  · intro call hTime ev hEv
    refine ⟨h.earned hTracked hWindow hTime hEv, ?_⟩
    exact (w.table.answered hTracked h.tracked call).bans.entered ev.key (Option.map_eq_some_iff.mpr ⟨ev, hEv, rfl⟩)
  · intro key expiry hBan more hMore
    refine (h.lapses hTracked hWindow (.inl hBan) hMore).imp_right fun hLapses ip nowMs hKey hExempt hTime => ?_
    exact hLapses.isBannedAt hKey hExempt hTime
  · intro ip ip4 hMapped
    have hUnmap : unmap (.v6 ip) = unmap (.v4 ip4) := by
      rw [unmap, normalizeIp, hMapped]
      rfl
    refine ⟨fun nowMs => ?_, fun order offence nowMs => recordAt_of_unmap hUnmap order offence nowMs⟩
    rw [← AutoBan.isBannedAt_unmap, hUnmap, AutoBan.isBannedAt_unmap]

def strictSettings (window : Nat) : AutoBanSettings := ⟨1, 0, 0, window, 1000000000, false, [], 1, 1⟩

theorem auto_ban_sound_once : BanContract (strictSettings 60000000000)
    (Trace.run (Watched.apply (strictSettings 60000000000)) .new
      [.record .stored (.v4 ⟨203, 0, 113, 7⟩) .authFailure 5, .isBanned (.v4 ⟨203, 0, 113, 7⟩) 6]) :=
  auto_ban_sound (strictSettings 60000000000) (by decide) (by decide) _
    ⟨Nat.zero_le _, show 5 ≤ 6 by decide, trivial⟩

/-- With a window of no length the first offence bans. -/
theorem empty_window_bans : 1 ≤ (strictSettings 0).maxTracked ∧ 1 ≤ (strictSettings 0).maxBans ∧
    0 < (strictSettings 0).ban ∧ ¬BanContract (strictSettings 0) .new := by
  refine ⟨by decide, by decide, by decide, fun h => ?_⟩
  obtain ⟨⟨e, hIn, -, first, -, -, -, hWithin⟩, -⟩ :=
    h.earned (.record .stored (.v4 ⟨203, 0, 113, 7⟩) .authFailure 0) (Nat.le_refl 0) _ rfl
  exact absurd (hWithin e (by rw [sinceStart, if_pos rfl]; split <;> exact List.mem_cons_self)).2 (Nat.not_lt_zero _)

end Runs

end Turna.Relay
