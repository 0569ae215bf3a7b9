import Turna.Auth.Subjects
import Turna.Lib.Machine

/-! # One fetch for a user

The fetches of a user that are queued or running and the lookups that have marked its slot are counted together: there
is one for a slot in flight, and none otherwise.
-/

namespace Turna.Auth.Webhook
open Lib Option

structure WebhookSettings where
  positiveTtlMs : Nat
  negativeTtlMs : Nat
  errorTtlMs : Nat
  maxEntries : Nat
  queueDepth : Nat

def maxUsernameBytes : Nat := 513

def minTtlMs : Nat := 1000

def sample : Nat := 16

abbrev Channel := String × Nat

inductive SlotState where
  | inFlight (channel : Channel)
  | found (keys : UserKeys)
  | notFound
  | failed
  deriving DecidableEq

structure Slot where
  state : SlotState
  expiresMs : Nat
  deriving DecidableEq

inductive FetchOutcome where
  | found (keys : UserKeys) (ttlMs : Option Nat)
  | notFound
  | failed
  deriving DecidableEq

def FetchOutcome.state : FetchOutcome → SlotState
  | .found keys _ => .found keys
  | .notFound => .notFound
  | .failed => .failed

def WebhookSettings.ttl (settings : WebhookSettings) : FetchOutcome → Nat
  | .found _ hint => max (hint.elim settings.positiveTtlMs (min · settings.positiveTtlMs)) minTtlMs
  | .notFound => max settings.negativeTtlMs minTtlMs
  | .failed => max settings.errorTtlMs minTtlMs

inductive Lookup where
  | found (keys : UserKeys)
  | notFound
  | unavailable
  | pending (waiter : Channel) (started : Bool)
  | throttled
  deriving DecidableEq

/-- The budget of the source, if it is asked, says `allowed`. -/
inductive FetchPolicy where
  | never
  | always
  | limited (allowed : Bool)
  deriving DecidableEq

namespace Slot

variable (slot : Slot) (nowMs : Nat)

def inFlight : Bool :=
  match slot.state with
  | .inFlight _ => true
  | _ => false

def answer : Option Lookup :=
  match slot.state with
  | .inFlight waiter => some (.pending waiter false)
  | .found keys => if slot.expiresMs ≤ nowMs then none else some (.found keys)
  | .notFound => if slot.expiresMs ≤ nowMs then none else some .notFound
  | .failed => if slot.expiresMs ≤ nowMs then none else some .unavailable

end Slot

structure Asking where
  username : String
  nowMs : Nat
  deriving DecidableEq

/-- The next access of a call, or a fetch. The clock is read with the access that follows. -/
inductive Call where
  | lookup (username : String) (policy : FetchPolicy)
  | probing (q : Asking)
  | counting (q : Asking)
  | sampling (q : Asking)
  | evicting (q : Asking) (victim : String)
  | entering (q : Asking)
  | marked (q : Asking) (waiter : Channel)
  | rejected (q : Asking)
  | returned (username : String) (result : Lookup) (atMs : Nat)
  | fetching (username : String)
  | sweeping
  | finished
  deriving DecidableEq

structure Answered where
  username : String
  keys : UserKeys
  hintMs : Option Nat
  atMs : Nat
  deriving DecidableEq

/-- The cache with its clock, and what the endpoint has answered. -/
structure World where
  settings : WebhookSettings
  clockMs : Nat
  entries : HashMap String Slot
  queue : List String
  channels : Nat
  answers : List Answered

structure Env where
  elapsedMs : Nat
  order : IterOrder
  fetcherGone : Bool
  outcome : FetchOutcome

/-- The entry that `evict_one` picks from its sample. -/
def victim (nowMs : Nat) : List (String × Slot) → Option (String × Nat) → Option String
  | [], best => best.map Prod.fst
  | (key, slot) :: rest, best =>
    if slot.inFlight then victim nowMs rest best
    else
      let best := if best.all (fun b => slot.expiresMs < b.2) then some (key, slot.expiresMs) else best
      if slot.expiresMs ≤ nowMs then best.map Prod.fst else victim nowMs rest best

namespace World

def new (settings : WebhookSettings) : World := ⟨settings, 0, .empty, [], 0, []⟩

variable (s : World)

def peek (username : String) : Lookup :=
  ((s.entries.get username).bind fun slot => if slot.inFlight then none else slot.answer s.clockMs).getD .notFound

/-- `lookup_with` up to the first access. -/
def look (username : String) (policy : FetchPolicy) : Call :=
  if policy = .never then .returned username (s.peek username) s.clockMs
  else if username.isEmpty ∨ maxUsernameBytes ≤ (Utf8.encode username).length then
    .returned username .notFound s.clockMs
  else
    match (s.entries.get username).bind (·.answer s.clockMs) with
    | some result => .returned username result s.clockMs
    | none =>
      if policy = .limited false then .returned username .throttled s.clockMs else .probing ⟨username, s.clockMs⟩

def mark (username : String) : World :=
  { s with
    entries := s.entries.insert username
      ⟨.inFlight (username, s.channels), ((s.entries.get username).map Slot.expiresMs).getD 0⟩
    channels := s.channels + 1 }

def complete (username : String) (outcome : FetchOutcome) : World :=
  if s.entries.contains username then
    let expiresMs := min (s.clockMs + s.settings.ttl outcome % 2 ^ 64) (2 ^ 64 - 1)
    { s with entries := s.entries.insert username ⟨outcome.state, expiresMs⟩ }
  else s

def hear (username : String) : FetchOutcome → World
  | .found keys hint => { s with answers := ⟨username, keys, hint, s.clockMs⟩ :: s.answers }
  | _ => s

def act (env : Env) : Call → Option (World × Call)
  | .lookup username policy => some (s, s.look username policy)
  | .probing q => some (s, if s.entries.contains q.username then .entering q else .counting q)
  | .counting q => some (s, if s.entries.len < s.settings.maxEntries then .entering q else .sampling q)
  | .sampling q =>
    some (s, match victim q.nowMs ((env.order.visit s.entries.entries).take sample) none with
      | some key => .evicting q key
      | none => .returned q.username .unavailable s.clockMs)
  | .evicting q key =>
    if (s.entries.get key).any (!·.inFlight) then some ({ s with entries := s.entries.remove key }, .entering q)
    else some (s, .returned q.username .unavailable s.clockMs)
  | .entering q =>
    match (s.entries.get q.username).bind (·.answer q.nowMs) with
    | some result => some (s, .returned q.username result s.clockMs)
    | none => some (s.mark q.username, .marked q (q.username, s.channels))
  | .marked q waiter =>
    if env.fetcherGone ∨ max s.settings.queueDepth 1 ≤ s.queue.length then some (s, .rejected q)
    else some ({ s with queue := s.queue ++ [q.username] }, .returned q.username (.pending waiter true) s.clockMs)
  | .rejected q =>
    let entries := if (s.entries.get q.username).any Slot.inFlight then s.entries.remove q.username else s.entries
    some ({ s with entries }, .returned q.username .unavailable s.clockMs)
  | .fetching username => some ((s.hear username env.outcome).complete username env.outcome, .finished)
  | .sweeping =>
    some ({ s with entries := s.entries.retain fun _ slot => slot.inFlight || s.clockMs < slot.expiresMs }, .finished)
  | .returned _ _ _ => none
  | .finished => none

def wait (ms : Nat) : World := { s with clockMs := s.clockMs + ms }

def enter : Call → Option World
  | .lookup _ _ => some s
  | .sweeping => some s
  | .fetching username => if s.queue.head? = some username then some { s with queue := s.queue.tail } else none
  | _ => none

end World

def cache : Machine World Call Env where
  start := World.enter
  advance env s call := (s.wait env.elapsedMs).act env call

namespace Call

variable (username : String)

def runs : Call → Bool
  | .fetching u => u == username
  | _ => false

/-- A lookup that has marked the slot and still has to queue the fetch or take the mark back. -/
def inserts : Call → Bool
  | .marked q _ => q.username == username
  | .rejected q => q.username == username
  | _ => false

def clears : Call → Bool
  | .evicting _ _ => true
  | .sweeping => true
  | _ => false

def idle : Call → Bool
  | .returned _ _ _ => true
  | .fetching _ => true
  | .finished => true
  | _ => false

end Call

/-- Keys found after a miss have not expired since. -/
def World.timely (s : World) : Call → Bool
  | .entering q =>
    match s.entries.get q.username with
    | some ⟨.found _, expiresMs⟩ => expiresMs ≤ q.nowMs || s.clockMs < expiresMs
    | _ => true
  | _ => true

def Timely (s : World) (_ : Multiset Call) : Label Call Env → Prop
  | .start _ => True
  | .advance call env => (s.wait env.elapsedMs).timely call = true

def OneAtATime (_ : World) (others : Multiset Call) (_ : Label Call Env) : Prop := ∀ call ∈ others, call.idle = true

def outstanding (s : World) (calls : Multiset Call) (username : String) : Nat :=
  s.queue.count username + calls.countP (·.runs username)

/-- A channel is open as long as its sender is in a slot. -/
structure FailsClosed (s : World) (calls : Multiset Call) : Prop where
  once : ∀ u, outstanding s calls u ≤ 1
  fetched : ∀ u slot, s.entries.get u = some slot → slot.inFlight = true →
    (∀ call ∈ calls, call.inserts u = false) → outstanding s calls u = 1
  found : ∀ u keys t, .returned u (.found keys) t ∈ calls → ∃ a ∈ s.answers, a.username = u ∧ a.keys = keys ∧
    a.atMs ≤ t ∧ t < a.atMs + max (a.hintMs.elim s.settings.positiveTtlMs (min · s.settings.positiveTtlMs)) 1000
  never : ∀ env u s' call', cache.advance env s (.lookup u .never) = some (s', call') →
    s'.queue = s.queue ∧ s'.entries = s.entries ∧ ∃ result t, call' = .returned u result t
  kept : ∀ call env s' call', call.clears = true → cache.advance env s call = some (s', call') →
    ∀ u slot, s.entries.get u = some slot → slot.inFlight = true → s'.entries.get u = some slot
  waits : ∀ u waiter started t, .returned u (.pending waiter started) t ∈ calls →
    (∀ v e, s.entries.get v ≠ some ⟨.inFlight waiter, e⟩) ∨
      outstanding s calls u + calls.countP (·.inserts u) = 1

/-! ## One fetch for a user -/

open HashMap Multiset

def World.flying (s : World) (u : String) : Bool := (s.entries.get u).any Slot.inFlight

def Call.share (u : String) (call : Call) : Nat :=
  (if call.runs u then 1 else 0) + if call.inserts u then 1 else 0

def SlotOk (s : World) (u : String) (slot : Slot) : Prop :=
  match slot.state with
  | .inFlight waiter => waiter.1 = u
  | .found granted => ∃ a ∈ s.answers, a.username = u ∧ a.keys = granted ∧ a.atMs ≤ s.clockMs ∧
    slot.expiresMs ≤ a.atMs + s.settings.ttl (.found granted a.hintMs)
  | _ => True

def CallOk (s : World) : Call → Prop
  | .marked q waiter => waiter.1 = q.username
  | .returned u (.found granted) t => ∃ a ∈ s.answers, a.username = u ∧ a.keys = granted ∧ a.atMs ≤ t ∧
    t < a.atMs + s.settings.ttl (.found granted a.hintMs)
  | .returned u (.pending waiter _) _ => waiter.1 = u
  | _ => True

def Room (s : World) (call : Call) : Prop :=
  ∀ q, call = .entering q → s.entries.contains q.username = true ∨ s.entries.len < s.settings.maxEntries

def SlotsOk (s : World) : Prop := ∀ u slot, s.entries.get u = some slot → SlotOk s u slot

structure Grows (s s' : World) : Prop where
  settings : s'.settings = s.settings
  clock : s.clockMs ≤ s'.clockMs
  answers : ∀ a ∈ s.answers, a ∈ s'.answers

structure Acts (s : World) (call : Call) (s' : World) (call' : Call) : Prop where
  grows : Grows s s'
  slots : SlotsOk s → SlotsOk s'
  called : SlotsOk s → CallOk s call → s.timely call = true → CallOk s' call'
  balance : (∀ v, call.share v ≠ 0 → s.flying v = true) → ∀ u,
    s'.queue.count u + call'.share u + (s.flying u).toNat = s.queue.count u + call.share u + (s'.flying u).toNat
  room : s.entries.len ≤ s.settings.maxEntries → Room s call → s'.entries.len ≤ s'.settings.maxEntries ∧ Room s' call'

section Step

variable {s s' : World} {call call' : Call} {env : Env} {u v : String} {slot : Slot} {result : Lookup}

theorem flying_insert : ((s.entries.insert v slot).get u).any Slot.inFlight = if u = v then slot.inFlight else s.flying u := by
  rw [get_insert]
  split <;> rfl

theorem flying_remove : ((s.entries.remove v).get u).any Slot.inFlight = if u = v then false else s.flying u := by
  rw [get_remove]
  split <;> rfl

theorem SlotOk.grows (h : SlotOk s u slot) (hGrows : Grows s s') : SlotOk s' u slot := by
  unfold SlotOk at h ⊢
  split at h
  · exact h
  · obtain ⟨a, hMem, hUser, hKeys, hPast, hExpires⟩ := h
    exact ⟨a, hGrows.answers a hMem, hUser, hKeys, hPast.trans hGrows.clock, hGrows.settings ▸ hExpires⟩
  · trivial

theorem CallOk.grows (h : CallOk s call) (hGrows : Grows s s') : CallOk s' call := by
  unfold CallOk at h ⊢
  split at h
  · exact h
  · obtain ⟨a, hMem, hRest⟩ := h
    exact ⟨a, hGrows.answers a hMem, hGrows.settings ▸ hRest⟩
  · exact h
  · trivial

theorem callOk_answer {nowMs : Nat} (hSlot : SlotOk s u slot) (h : slot.answer nowMs = some result)
    (hTimely : ∀ keys, slot.state = .found keys → slot.expiresMs ≤ nowMs ∨ s.clockMs < slot.expiresMs) :
    CallOk s (.returned u result s.clockMs) := by
  obtain ⟨state, expiresMs⟩ := slot
  cases state with
  | inFlight waiter =>
    cases h
    exact hSlot
  | found keys =>
    obtain ⟨a, hMem, hUser, hKeys, hPast, hExpires⟩ := hSlot
    dsimp only [Slot.answer] at h
    split at h <;> cases h
    next hLive => exact ⟨a, hMem, hUser, hKeys, hPast, ((hTimely keys rfl).resolve_left hLive).trans_le hExpires⟩
  | _ =>
    dsimp only [Slot.answer] at h
    split at h <;> cases h
    trivial

theorem callOk_current (hSlots : SlotsOk s) (hGet : s.entries.get u = some slot)
    (h : slot.answer s.clockMs = some result) : CallOk s (.returned u result s.clockMs) :=
  callOk_answer (hSlots u slot hGet) h fun _ _ => Nat.lt_or_ge _ _ |>.symm

theorem callOk_peek (hSlots : SlotsOk s) : CallOk s (.returned u (s.peek u) s.clockMs) := by
  unfold World.peek
  cases hGet : s.entries.get u with
  | none => trivial
  | some slot =>
    rw [bind_some]
    split
    · trivial
    cases hAnswer : slot.answer s.clockMs with
    | none => trivial
    | some result => exact callOk_current hSlots hGet hAnswer

theorem look_cases (policy : FetchPolicy) : s.look u policy = .probing ⟨u, s.clockMs⟩ ∨
    ∃ result, s.look u policy = .returned u result s.clockMs ∧
      (SlotsOk s → CallOk s (.returned u result s.clockMs)) := by
  unfold World.look
  split
  · exact .inr ⟨_, rfl, callOk_peek⟩
  split
  · exact .inr ⟨_, rfl, fun _ => trivial⟩
  split
  · next hResult =>
    obtain ⟨slot, hGet, hAnswer⟩ := bind_eq_some_iff.mp hResult
    exact .inr ⟨_, rfl, fun hSlots => callOk_current hSlots hGet hAnswer⟩
  split
  · exact .inr ⟨_, rfl, fun _ => trivial⟩
  · exact .inl rfl

theorem Acts.same (hCall : SlotsOk s → CallOk s call → s.timely call = true → CallOk s call')
    (hShare : ∀ u, call'.share u = call.share u) (hRoom : Room s call → Room s call') : Acts s call s call' where
  grows := ⟨rfl, le_rfl, fun _ h => h⟩
  slots h := h
  called := hCall
  balance _ u := by rw [hShare]
  room hLen h := ⟨hLen, hRoom h⟩

theorem slotsOk_remove (h : SlotsOk s) (v : String) : SlotsOk { s with entries := s.entries.remove v } := by
  intro u slot hGet
  exact h u slot (get_of_get_remove hGet)

theorem acts_evicting {q : Asking} (h : (s.entries.get v).any (!·.inFlight) = true) :
    Acts s (.evicting q v) { s with entries := s.entries.remove v } (.entering q) := by
  cases hGet : s.entries.get v with
  | none =>
    rw [hGet] at h
    cases h
  | some slot =>
    rw [hGet, any_some, Bool.not_eq_true'] at h
    refine ⟨⟨rfl, le_rfl, fun _ h => h⟩, fun hSlots => slotsOk_remove hSlots v, fun _ _ _ => trivial, fun _ u => ?_, ?_⟩
    · rw [show World.flying { s with entries := s.entries.remove v } u = _ from flying_remove]
      split
      · next hUser => simp [hUser, World.flying, hGet, h, Call.share, Call.runs, Call.inserts]
      · rfl
    · intro hLen _
      rw [len_remove_of_some hGet] at hLen
      exact ⟨Nat.le_of_succ_le hLen, fun _ _ => .inr hLen⟩

theorem acts_entering {q : Asking} (h : (s.entries.get q.username).bind (·.answer q.nowMs) = none) :
    Acts s (.entering q) (s.mark q.username) (.marked q (q.username, s.channels)) := by
  have hFree : s.flying q.username = false := by
    unfold World.flying
    cases hGet : s.entries.get q.username with
    | none => rfl
    | some slot =>
      rw [hGet, bind_some] at h
      obtain ⟨state, expiresMs⟩ := slot
      cases state with
      | inFlight waiter => cases h
      | _ => rfl
  refine ⟨⟨rfl, le_rfl, fun _ h => h⟩, fun hSlots u slot hGet => ?_, fun _ _ _ => rfl, fun _ u => ?_, fun hLen hRoom => ?_⟩
  · obtain ⟨rfl, rfl⟩ | hOld := get_insert_cases hGet
    · rfl
    · exact hSlots u slot hOld
  · rw [show (s.mark q.username).flying u = _ from flying_insert]
    split
    · next hUser => simp [hUser, hFree, Call.share, Call.runs, Call.inserts, Slot.inFlight, World.mark]
    · next hUser => simp [Ne.symm hUser, Call.share, Call.runs, Call.inserts, World.mark]
  · refine ⟨?_, by rintro _ ⟨⟩⟩
    show (s.entries.insert _ _).len ≤ _
    cases hGet : s.entries.get q.username with
    | some slot => exact (len_insert_of_some _ hGet).trans_le hLen
    | none =>
      have hLess := (hRoom q rfl).resolve_left (by simp [contains, hGet])
      exact (len_insert_of_none _ hGet).trans_le hLess

theorem acts_rejected {q : Asking} : Acts s (.rejected q)
    { s with entries := if s.flying q.username then s.entries.remove q.username else s.entries }
    (.returned q.username .unavailable s.clockMs) := by
  refine ⟨⟨rfl, le_rfl, fun _ h => h⟩, fun hSlots => ?_, fun _ _ _ => trivial, fun hShare u => ?_, fun hLen _ => ?_⟩
  · split
    · exact slotsOk_remove hSlots _
    · exact hSlots
  · have hFly : s.flying q.username = true := hShare _ (by simp [Call.share, Call.inserts])
    rw [if_pos hFly, show World.flying { s with entries := s.entries.remove q.username } u = _ from flying_remove]
    split
    · next hUser => simp [hUser, hFly, Call.share, Call.runs, Call.inserts]
    · next hUser => simp [Ne.symm hUser, Call.share, Call.runs, Call.inserts]
  · refine ⟨?_, nofun⟩
    dsimp only
    split
    · exact (len_remove_le _ _).trans hLen
    · exact hLen

theorem hear_spec (outcome : FetchOutcome) : Grows s (s.hear v outcome) ∧ (s.hear v outcome).entries = s.entries ∧
    (s.hear v outcome).queue = s.queue ∧ ∀ e ≤ s.clockMs + (s.hear v outcome).settings.ttl outcome,
      SlotOk (s.hear v outcome) v ⟨outcome.state, e⟩ := by
  cases outcome with
  | found keys hint =>
    exact ⟨⟨rfl, le_rfl, fun a h => List.mem_cons_of_mem _ h⟩, rfl, rfl, fun e hExpires =>
      ⟨_, List.mem_cons_self, rfl, rfl, le_rfl, hExpires⟩⟩
  | _ => exact ⟨⟨rfl, le_rfl, fun _ h => h⟩, rfl, rfl, fun _ _ => trivial⟩

theorem acts_complete (outcome : FetchOutcome) :
    Acts s (.fetching v) ((s.hear v outcome).complete v outcome) .finished := by
  obtain ⟨hGrows, hEntries, hQueue, hNew⟩ := @hear_spec s v outcome
  have hExpires : min ((s.hear v outcome).clockMs + (s.hear v outcome).settings.ttl outcome % 2 ^ 64) (2 ^ 64 - 1) ≤
      s.clockMs + (s.hear v outcome).settings.ttl outcome := by
    have hClock : (s.hear v outcome).clockMs = s.clockMs := by cases outcome <;> rfl
    have hMod := Nat.mod_le ((s.hear v outcome).settings.ttl outcome) (2 ^ 64)
    omega
  have hNew := hNew _ hExpires
  have hDone (e : Nat) : Slot.inFlight ⟨outcome.state, e⟩ = false := by cases outcome <;> rfl
  have hLeft : (∀ v', (Call.fetching v).share v' ≠ 0 → s.flying v' = true) → s.flying v = true :=
    fun hShare => hShare v (by simp [Call.share, Call.runs])
  unfold World.complete
  generalize s.hear v outcome = s₁ at *
  have hKept (hSlots : SlotsOk s) : SlotsOk s₁ := fun u slot hGet => (hSlots u slot (hEntries ▸ hGet)).grows hGrows
  rw [contains, hEntries]
  dsimp only
  generalize min (s₁.clockMs + s₁.settings.ttl outcome % 2 ^ 64) (2 ^ 64 - 1) = e at *
  cases hOld : s.entries.get v with
  | none =>
    refine ⟨hGrows, hKept, fun _ _ _ => trivial, fun hShare u => ?_, fun hLen _ => ⟨?_, by rintro _ ⟨⟩⟩⟩
    · have hFly := hLeft hShare
      rw [World.flying, hOld] at hFly
      cases hFly
    · show s₁.entries.len ≤ s₁.settings.maxEntries
      rw [hEntries, hGrows.settings]
      exact hLen
  | some old =>
    refine ⟨⟨hGrows.settings, hGrows.clock, hGrows.answers⟩, fun hSlots u slot hGet => ?_, fun _ _ _ => trivial,
      fun hShare u => ?_, fun hLen _ => ⟨?_, by rintro _ ⟨⟩⟩⟩
    · obtain ⟨rfl, rfl⟩ | hOld := get_insert_cases hGet
      · exact hNew
      · exact hKept hSlots u slot (hEntries ▸ hOld)
    · rw [isSome_some, if_pos rfl,
        show World.flying { s₁ with entries := s.entries.insert v _ } u = _ from flying_insert, hDone, hQueue]
      split
      · next hUser => simp [hUser, hLeft hShare, Call.share, Call.runs, Call.inserts]
      · next hUser => simp [Ne.symm hUser, Call.share, Call.runs, Call.inserts]
    · exact (len_insert_of_some _ hOld).trans_le (hLen.trans_eq (by rw [← hGrows.settings]; rfl))

theorem acts_sweeping : Acts s .sweeping
    { s with entries := s.entries.retain fun _ slot => slot.inFlight || s.clockMs < slot.expiresMs } .finished := by
  refine ⟨⟨rfl, le_rfl, fun _ h => h⟩, fun hSlots u slot hGet => ?_, fun _ _ _ => trivial, fun _ u => ?_, fun hLen _ => ?_⟩
  · rw [get_retain] at hGet
    exact hSlots u slot (filter_eq_some_iff.mp hGet).1
  · unfold World.flying
    rw [get_retain]
    cases s.entries.get u with
    | none => rfl
    | some slot =>
      rw [Option.filter]
      cases hFly : slot.inFlight with
      | true => simp [hFly, Call.share, Call.runs, Call.inserts]
      | false => split <;> simp [hFly, Call.share, Call.runs, Call.inserts]
  · exact ⟨(List.length_filter_le _ _).trans hLen, nofun⟩

theorem acts_of_act (h : s.act env call = some (s', call')) : Acts s call s' call' := by
  cases call with
  | lookup u policy =>
    cases h
    obtain hEq | ⟨result, hEq, hOk⟩ := @look_cases s u policy
    · rw [hEq]
      exact .same (fun _ _ _ => trivial) (fun _ => rfl) (by rintro _ _ ⟨⟩)
    · rw [hEq]
      exact .same (fun hSlots _ _ => hOk hSlots) (fun _ => rfl) (by rintro _ _ ⟨⟩)
  | probing q =>
    cases h
    split
    · next hThere => exact .same (fun _ _ _ => trivial) (fun _ => rfl) fun _ q' hSame => by cases hSame; exact .inl hThere
    · exact .same (fun _ _ _ => trivial) (fun _ => rfl) (by rintro _ _ ⟨⟩)
  | counting q =>
    cases h
    split
    · next hLess => exact .same (fun _ _ _ => trivial) (fun _ => rfl) fun _ _ _ => .inr hLess
    · exact .same (fun _ _ _ => trivial) (fun _ => rfl) (by rintro _ _ ⟨⟩)
  | sampling q =>
    cases h
    split <;> exact .same (fun _ _ _ => trivial) (fun _ => rfl) (by rintro _ _ ⟨⟩)
  | evicting q key =>
    rw [World.act] at h
    split at h <;> cases h
    · next hAny => exact acts_evicting hAny
    · exact .same (fun _ _ _ => trivial) (fun _ => rfl) (by rintro _ _ ⟨⟩)
  | entering q =>
    rw [World.act] at h
    split at h <;> cases h
    · next hResult =>
      obtain ⟨slot, hGet, hAnswer⟩ := bind_eq_some_iff.mp hResult
      refine .same (fun hSlots _ hTimely => callOk_answer (hSlots _ slot hGet) hAnswer fun keys hState => ?_)
        (fun _ => rfl) (by rintro _ _ ⟨⟩)
      obtain ⟨state, expiresMs⟩ := slot
      cases hState
      simpa [World.timely, hGet] using hTimely
    · next hNone => exact acts_entering hNone
  | marked q waiter =>
    rw [World.act] at h
    split at h <;> cases h
    · exact .same (fun _ _ _ => trivial) (fun _ => rfl) (by rintro _ _ ⟨⟩)
    · refine ⟨⟨rfl, le_rfl, fun _ h => h⟩, fun h => h, fun _ hCall _ => hCall, fun _ u => ?_, fun hLen _ => ⟨hLen, by rintro _ ⟨⟩⟩⟩
      rw [List.count_append, List.count_singleton]
      simp only [Call.share, Call.runs, Call.inserts]
      simp
      rfl
  | rejected q =>
    cases h
    exact acts_rejected
  | fetching u =>
    cases h
    exact acts_complete env.outcome
  | sweeping =>
    cases h
    exact acts_sweeping
  | returned u result atMs | finished => cases h

end Step

/-! ## Runs -/

structure Sound (s : World) (calls : Multiset Call) : Prop where
  slots : SlotsOk s
  called : ∀ call ∈ calls, CallOk s call
  balanced : ∀ u, outstanding s calls u + calls.countP (·.inserts u) = (s.flying u).toNat

section Runs

variable {s s' : World} {call call' : Call} {env : Env} {calls rest : Multiset Call}

theorem outstanding_cons (u : String) : outstanding s (call ::ₘ rest) u + (call ::ₘ rest).countP (·.inserts u) =
    s.queue.count u + call.share u + (rest.countP (·.runs u) + rest.countP (·.inserts u)) := by
  rw [outstanding, countP_cons, countP_cons, Call.share]
  omega

theorem Sound.wait (h : Sound s rest) (ms : Nat) : Sound (s.wait ms) rest := by
  have hGrows : Grows s (s.wait ms) := ⟨rfl, Nat.le_add_right _ _, fun _ h => h⟩
  exact ⟨fun u slot hGet => (h.slots u slot hGet).grows hGrows, fun call hMem => (h.called call hMem).grows hGrows,
    h.balanced⟩

theorem Sound.act (h : Sound s (call ::ₘ rest)) (hTimely : s.timely call = true)
    (hAct : s.act env call = some (s', call')) : Sound s' (call' ::ₘ rest) := by
  have hActs := acts_of_act hAct
  refine ⟨hActs.slots h.slots, fun other hMem => ?_, fun u => ?_⟩
  · obtain rfl | hMem := mem_cons.mp hMem
    · exact hActs.called h.slots (h.called call (mem_cons_self ..)) hTimely
    · exact (h.called other (mem_cons_of_mem hMem)).grows hActs.grows
  · have hOld := h.balanced u
    have hStep := hActs.balance (fun v hShare => by
      have hCount := h.balanced v
      rw [outstanding_cons] at hCount
      cases hFly : s.flying v with
      | true => rfl
      | false =>
        rw [hFly, Bool.toNat_false] at hCount
        omega) u
    rw [outstanding_cons] at hOld ⊢
    omega

theorem enter_cases (h : s.enter call = some s') : (∀ q, call ≠ .entering q) ∧ (∀ s, CallOk s call) ∧
    (s' = s ∧ (∀ u, call.share u = 0) ∨
      ∃ u jobs, call = .fetching u ∧ s.queue = u :: jobs ∧ s' = { s with queue := jobs }) := by
  cases call with
  | lookup u policy | sweeping =>
    cases h
    exact ⟨nofun, fun _ => trivial, .inl ⟨rfl, fun _ => rfl⟩⟩
  | fetching u =>
    rw [World.enter] at h
    split at h <;> cases h
    next hHead =>
    obtain ⟨jobs, hQueue⟩ := List.head?_eq_some_iff.mp hHead
    exact ⟨nofun, fun _ => trivial, .inr ⟨u, jobs, rfl, hQueue, by rw [hQueue, List.tail_cons]⟩⟩
  | _ => cases h

theorem Sound.enter (h : Sound s rest) (hEnter : s.enter call = some s') : Sound s' (call ::ₘ rest) := by
  obtain ⟨-, hCall, hCases⟩ := enter_cases hEnter
  have hMem (hOthers : ∀ other ∈ rest, CallOk s' other) : ∀ other ∈ call ::ₘ rest, CallOk s' other := by
    intro other hMem
    obtain rfl | hMem := mem_cons.mp hMem
    · exact hCall s'
    · exact hOthers other hMem
  obtain ⟨rfl, hShare⟩ | ⟨u, jobs, rfl, hQueue, rfl⟩ := hCases
  · refine ⟨h.slots, hMem h.called, fun u => ?_⟩
    rw [outstanding_cons, hShare, ← h.balanced u, outstanding]
    omega
  · refine ⟨h.slots, hMem h.called, fun v => ?_⟩
    have hOld := h.balanced v
    rw [outstanding, hQueue, List.count_cons] at hOld
    rw [outstanding_cons]
    show jobs.count v + ((if u == v then 1 else 0) + 0) + _ = (s.flying v).toNat
    omega

theorem Sound.failsClosed (h : Sound s calls) : FailsClosed s calls where
  once u := by
    have hCount := h.balanced u
    have hBool := Bool.toNat_le (s.flying u)
    omega
  fetched u slot hGet hFly hDone := by
    have hCount := h.balanced u
    have hNone : calls.countP (·.inserts u) = 0 :=
      countP_eq_zero.mpr fun call hMem => Bool.eq_false_iff.mp (hDone call hMem)
    rw [hNone, World.flying, hGet, any_some, hFly] at hCount
    exact hCount
  found u keys t hMem := h.called _ hMem
  never env u s' call' hStep := by
    cases hStep
    exact ⟨rfl, rfl, _, _, rfl⟩
  kept call env s' call' hClears hStep u slot hGet hFly := by
    cases call with
    | evicting q key =>
      change (s.wait env.elapsedMs).act env (.evicting q key) = _ at hStep
      rw [World.act] at hStep
      split at hStep <;> cases hStep
      · next hAny =>
        refine (get_remove_ne _ fun hKey => ?_).trans hGet
        subst hKey
        rw [show (s.wait env.elapsedMs).entries.get u = some slot from hGet, any_some, hFly] at hAny
        cases hAny
      · exact hGet
    | sweeping =>
      cases hStep
      refine (get_retain _ _ _).trans (filter_eq_some_iff.mpr ⟨hGet, ?_⟩)
      rw [hFly, Bool.true_or]
    | _ => cases hClears
  waits u waiter started t hMem := by
    by_cases hOpen : ∃ v e, s.entries.get v = some ⟨.inFlight waiter, e⟩
    · obtain ⟨v, e, hGet⟩ := hOpen
      have hUser : waiter.1 = v := h.slots v _ hGet
      have hOwn : waiter.1 = u := h.called _ hMem
      have hCount := h.balanced v
      rw [World.flying, hGet] at hCount
      exact .inr (hOwn ▸ hUser ▸ hCount)
    · exact .inl fun v e hGet => hOpen ⟨v, e, hGet⟩

theorem bounded_alone {settings : WebhookSettings} (h : cache.Reaches OneAtATime (.new settings, 0) (s, calls)) :
    s.entries.len ≤ s.settings.maxEntries := by
  have hOthers {s : World} {call : Call} {rest : Multiset Call} (hRoom : Room s call)
      (hIdle : ∀ other ∈ rest, other.idle = true) : ∀ other ∈ call ::ₘ rest, Room s other := by
    intro other hMem
    obtain rfl | hMem := mem_cons.mp hMem
    · exact hRoom
    · rintro q rfl
      cases hIdle _ hMem
  refine (h.invariant (fun s calls => s.entries.len ≤ s.settings.maxEntries ∧ ∀ call ∈ calls, Room s call) ?_ ?_
    ⟨Nat.zero_le _, nofun⟩).1
  · intro s calls call s' hInv hOk hEnter
    obtain ⟨hNot, -, ⟨rfl, -⟩ | ⟨u, jobs, -, -, rfl⟩⟩ := enter_cases hEnter
    all_goals exact ⟨hInv.1, hOthers (fun q hSame => absurd hSame (hNot q)) hOk⟩
  · intro s rest call env s' call' hInv hOk hAct
    obtain ⟨hLen, hRoom⟩ := (acts_of_act hAct).room hInv.1 (hInv.2 call (mem_cons_self ..))
    exact ⟨hLen, hOthers hRoom hOk⟩

end Runs

/-- The cache fails closed in every run in which no lookup returns keys that expired since it missed. -/
theorem cache_fails_closed (settings : WebhookSettings) (s : World) (calls : Multiset Call)
    (h : cache.Reaches Timely (.new settings, 0) (s, calls)) :
    FailsClosed s calls ∧ ∀ s' calls', cache.Reaches OneAtATime (.new settings, 0) (s', calls') →
      s'.entries.len ≤ s'.settings.maxEntries := by
  refine ⟨Sound.failsClosed ?_, fun s' calls' => bounded_alone⟩
  refine h.invariant Sound ?_ ?_ ⟨nofun, nofun, fun u => rfl⟩
  · exact fun s calls call s' hInv _ hEnter => hInv.enter hEnter
  · exact fun s rest call env s' call' hInv hOk hAct => (hInv.wait env.elapsedMs).act hOk hAct

instance (s : World) (calls : Multiset Call) (l : Label Call Env) : Decidable (Timely s calls l) := by
  cases l <;> unfold Timely <;> infer_instance

def oneSecond : WebhookSettings := ⟨1000, 1000, 1000, 8, 8⟩

def someKeys : UserKeys := ⟨[1], [2]⟩

def step (index ms : Nat) : Machine.Choice Call Env := .advance index ⟨ms, .stored, false, .found someKeys none⟩

def fetch : List (Machine.Choice Call Env) :=
  .start (.lookup "u" .always) :: List.replicate 5 (step 0 0) ++ [.start (.fetching "u"), step 0 0]

theorem cache_fails_closed_hit : ∃ (s : World) (calls : Multiset Call),
    Call.returned "u" (.found someKeys) 999 ∈ calls ∧ FailsClosed s calls := by
  obtain ⟨s, calls, hReaches, hSeen⟩ := cache.exists_reaches_of_exec Timely (.new oneSecond, [])
    (fetch ++ [.start (.lookup "u" .always), step 0 999])
    (fun _ calls => .returned "u" (.found someKeys) 999 ∈ calls) (by decide +kernel)
  exact ⟨s, calls, hSeen, (cache_fails_closed oneSecond s calls hReaches).1⟩

/-- A lookup that has missed is delayed, and returns keys that expired eight seconds ago. -/
theorem expired_keys_returned : ∃ (s : World) (calls : Multiset Call),
    cache.Reaches (fun _ _ _ => True) (.new oneSecond, 0) (s, calls) ∧
      Call.returned "u" (.found someKeys) 9000 ∈ calls ∧ s.answers = [⟨"u", someKeys, none, 0⟩] := by
  obtain ⟨s, calls, hReaches, hSeen⟩ := cache.exists_reaches_of_exec (fun _ _ _ => True)
    (.new oneSecond, []) (.start (.lookup "u" .always) :: step 0 0 :: fetch ++ [step 2 9000, step 2 0])
    (fun s calls => .returned "u" (.found someKeys) 9000 ∈ calls ∧ s.answers = [⟨"u", someKeys, none, 0⟩])
    (by decide +kernel)
  exact ⟨s, calls, hReaches, hSeen⟩

end Turna.Auth.Webhook
