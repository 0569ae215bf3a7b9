import Turna.Session.PortLedger

/-! # The channel index

The index from relay port and channel number to client agrees with the bindings of the live
allocations as long as no sweep drops an expired binding from an allocation that stays.
-/

namespace Turna.Session
open Lib Net HashMap AllocationStore

/-- The index has an entry exactly for the bindings of the live allocations. -/
def ChannelsAgree (s : AllocationStore) : Prop :=
  ∀ port channel c, s.getByChannel port channel = some c ↔
    ∃ a, s.allocations.get c = some a ∧ a.relayAddr.port = port ∧ a.channelBindings.contains channel = true

def CarriesChannel (a : Allocation) (i : UInt16 × UInt16) : Prop :=
  a.relayAddr.port = i.1 ∧ a.channelBindings.contains i.2 = true

/-- Ports are published from a caller's hand with their bindings indexed, and edits keep the bound channels. -/
def channelRules : Rules :=
  { ledgerRules with
    publish := fun s channels a => Ledger s {a.relayAddr.port} ∧
      ∀ channel, channel ∈ channels ↔ a.channelBindings.contains channel = true
    edit := fun a a' => ∀ channel, a'.channelBindings.contains channel = a.channelBindings.contains channel
    edit_of_channels := fun _ _ h channel => by rw [h] }

structure ChannelInvariant (s : AllocationStore) : Prop where
  ledger : Ledger s 0
  channels : IndexedBy s.channelToClient s.allocations CarriesChannel

theorem ChannelInvariant.agree {s : AllocationStore} (h : ChannelInvariant s) : ChannelsAgree s :=
  fun port channel c => h.channels (port, channel) c

theorem bindChannel_contains (a : Allocation) (now : Nat) (channel : UInt16) (peerAddr : SocketAddr) (ch : UInt16) :
    (a.bindChannel now channel peerAddr).channelBindings.contains ch = true ↔
      ch = channel ∨ a.channelBindings.contains ch = true := by
  have hInsert : ∀ b, (a.channelBindings.insert channel b).contains ch = true ↔
      ch = channel ∨ a.channelBindings.contains ch = true := by
    intro b
    rw [contains, get_insert, contains]
    split
    · next hEq => exact ⟨fun _ => .inl hEq, fun _ => rfl⟩
    · next hNe => exact ⟨.inr, fun h => h.resolve_left hNe⟩
  rw [Allocation.bindChannel]
  split <;> exact hInsert _

section Effects

variable {s s' : AllocationStore}

variable {a : Allocation}

theorem channels_bind {c : SocketAddr} (h : ChannelInvariant s) (now : Nat) (channel : UInt16)
    (peerAddr : SocketAddr) (hGet : s.allocations.get c = some a) :
    IndexedBy (s.channelToClient.insert (a.relayAddr.port, channel) c)
      (s.allocations.insert c (a.bindChannel now channel peerAddr)) CarriesChannel := by
  have hRelay := (sameOwner_bindChannel a now channel peerAddr).relayAddr
  have hCarries : ∀ i, CarriesChannel (a.bindChannel now channel peerAddr) i ↔
      i = (a.relayAddr.port, channel) ∨ CarriesChannel a i := by
    rintro ⟨port, ch⟩
    rw [CarriesChannel, hRelay, bindChannel_contains, CarriesChannel, Prod.mk.injEq, and_or_left, eq_comm]
  refine h.channels.set (fun i c' a' hi hGet' hi' => ?_) (fun i hi => ?_) (fun i hi hc => ?_) (fun i hi _ => ?_)
  · exact h.ledger.port_inj hGet' hGet (hi'.1.trans (hi.1.symm.trans (congrArg _ hRelay)))
  · rw [get_insert]
    split
    · rfl
    · next hNe => exact h.channels.get_of_carries hGet (((hCarries i).mp hi).resolve_left hNe)
  · obtain ⟨a₀, hGet₀, hi₀⟩ := (h.channels i c).mp hc
    rw [hGet] at hGet₀
    cases hGet₀
    exact absurd ((hCarries i).mpr (.inr hi₀)) hi
  · exact get_insert_ne _ _ (fun hEq => hi ((hCarries i).mpr (.inl hEq)))

theorem mem_map_channels {channels : List UInt16}
    (hChannels : ∀ channel, channel ∈ channels ↔ a.channelBindings.contains channel = true) (i : UInt16 × UInt16) :
    i ∈ channels.map (fun ch => (a.relayAddr.port, ch)) ↔ CarriesChannel a i := by
  rw [List.mem_map, CarriesChannel]
  constructor
  · rintro ⟨ch, hMem, rfl⟩
    exact ⟨rfl, (hChannels ch).mp hMem⟩
  · rintro ⟨hPort, hCh⟩
    exact ⟨i.2, (hChannels i.2).mpr hCh, by rw [hPort]⟩

theorem mem_keys_contains {a : Allocation} {order : IterOrder} (channel : UInt16) :
    channel ∈ order.visit a.channelBindings.keys ↔ a.channelBindings.contains channel = true := by
  rw [order.mem_visit, mem_keys_iff, contains, Option.isSome_iff_exists]

theorem channels_publish {channels : List UInt16} (h : ChannelInvariant s)
    (hVacant : s.allocations.get a.clientAddr = none) (hRule : channelRules.publish s channels a) :
    IndexedBy (channels.foldl (fun m number => m.insert (a.relayAddr.port, number) a.clientAddr) s.channelToClient)
      (s.allocations.insert a.clientAddr a) CarriesChannel := by
  obtain ⟨hLedger, hChannels⟩ := hRule
  have hNotLive : a.relayAddr.port ∉ portsOf s.allocations := by
    intro hLive
    have hNodup := (Multiset.nodup_add.mp hLedger.nodup).2.2
    exact Multiset.disjoint_left.mp hNodup hLive (Multiset.mem_singleton_self _)
  have hNone : ∀ i, s.channelToClient.get i ≠ some a.clientAddr := by
    intro i hi
    obtain ⟨a₀, hGet₀, -⟩ := (h.channels i _).mp hi
    rw [hVacant] at hGet₀
    cases hGet₀
  refine h.channels.set (fun i c' a' hi hGet' hi' => ?_) (fun i hi => ?_) (fun i _ hc => absurd hc (hNone i))
    (fun i hi _ => ?_)
  · exact absurd (mem_portsOf.mpr ⟨c', a', hGet', hi'.1.trans hi.1.symm⟩) hNotLive
  · rw [get_foldl_insert, if_pos ((mem_map_channels hChannels i).mpr hi)]
  · rw [get_foldl_insert, if_neg (fun hMem => hi ((mem_map_channels hChannels i).mp hMem))]

theorem channels_teardown {c : SocketAddr} {script : List Stmt} (h : ChannelInvariant s)
    (hGet : s.allocations.get c = some a) (hTeardown : IsTeardown script a c a.relayAddr) :
    IndexedBy ((script.filterMap Stmt.channel?).foldl remove s.channelToClient)
      (s.allocations.remove c) CarriesChannel := by
  have hMem : ∀ i, i ∈ script.filterMap Stmt.channel? ↔ CarriesChannel a i := by
    intro i
    rw [hTeardown.channels.mem_iff]
    refine mem_map_channels (fun channel => ?_) i
    exact @mem_keys_contains a .stored channel
  refine h.channels.erase (fun i hc => ?_) (fun i hc => ?_)
  · obtain ⟨a₀, hGet₀, hi⟩ := (h.channels i c).mp hc
    rw [hGet] at hGet₀
    cases hGet₀
    rw [get_foldl_remove, if_pos ((hMem i).mpr hi)]
  · rw [get_foldl_remove, if_neg]
    exact fun hIn => hc (h.channels.get_of_carries hGet ((hMem i).mp hIn))

theorem ChannelInvariant.effect (h : ChannelInvariant s) (hEffect : Effect channelRules s s') :
    ChannelInvariant s' := by
  have hLedger : Ledger s' 0 := h.ledger.effect (fun _ _ _ hRule => And.left hRule) (fun _ _ hRule => hRule)
    (fun _ _ hRule => hRule) hEffect
  refine ⟨hLedger, ?_⟩
  cases hEffect with
  | quiet hQuiet => rw [hQuiet.channelToClient, hQuiet.allocations]; exact h.channels
  | prune => exact h.channels
  | edit hGet hSame _ hRule =>
    refine h.channels.update hGet (fun i => ?_)
    rw [CarriesChannel, CarriesChannel, hSame.relayAddr, hRule i.2]
  | bind now channel peerAddr hGet => exact channels_bind h now channel peerAddr hGet
  | publish hCharge hPools hVacant hRule =>
    rw [publish, hCharge.channelToClient, hCharge.allocations]
    exact channels_publish h hVacant hRule
  | teardown hGet hTeardown hRule =>
    rw [runScript_channelToClient, runScript_allocations]
    exact channels_teardown h hGet (hRule ▸ hTeardown)
  | @move oldAddr newAddr a order hGet hVacant =>
    have hMem := mem_map_channels (@mem_keys_contains a order)
    refine h.channels.move hGet hVacant (fun i => Iff.rfl) (fun i hi => ?_) (fun i hi => ?_)
    · exact (get_foldl_insert ..).trans (if_pos ((hMem i).mpr hi))
    · exact (get_foldl_insert ..).trans (if_neg (fun hIn => hi ((hMem i).mp hIn)))

end Effects

def StoreOp.KeepsBindings (s : AllocationStore) : StoreOp → Prop
  | .cleanup order sweep maxOps =>
    ∀ c ∈ (s.classified order sweep maxOps).toClean, ∀ a, s.allocations.get c = some a →
      ∀ channel binding, a.channelBindings.get channel = some binding → binding.isExpired (sweep.prune c) = false
  | _ => True

theorem cleanupExpiredEntries_channels {a : Allocation} {order : IterOrder} {now : Nat}
    (h : ∀ channel binding, a.channelBindings.get channel = some binding → binding.isExpired now = false) :
    (a.cleanupExpiredEntries order now).channelBindings = a.channelBindings := by
  have hNone : a.channelBindings.entries.filter (fun e => e.2.isExpired now) = [] := by
    rw [List.filter_eq_nil_iff]
    intro e hMem
    rw [h e.1 e.2 (mem_entries_iff.mp hMem)]
    exact Bool.false_ne_true
  have hVisit : order.visit ([] : List (UInt16 × ChannelBinding)) = [] := (order.perm []).eq_nil
  rw [Allocation.cleanupExpiredEntries, hNone, hVisit]
  rfl

theorem ChannelInvariant.apply {s : AllocationStore} {op : StoreOp} (h : ChannelInvariant s) (hOrderly : op.Orderly s)
    (hBindings : op.KeepsBindings s) : ChannelInvariant (op.apply s) := by
  have hKeeps : op.Keeps channelRules s := by
    cases op with
    | pool id f => exact hOrderly.ledger
    | create clock req =>
      intro _
      refine ⟨h.ledger.drawn hOrderly, fun channel => ?_⟩
      exact ⟨nofun, nofun⟩
    | rehydrate order clock row =>
      intro _ hReserve
      exact ⟨h.ledger.prepared row hReserve, fun channel => @mem_keys_contains (row.restored s clock) order channel⟩
    | remove order clock c r => exact fun a hGet => (hOrderly a hGet).symm
    | cleanup order sweep maxOps =>
      intro c hMem a hGet channel
      rw [cleanupExpiredEntries_channels (hBindings c hMem a hGet)]
    | _ => trivial
  have hMinted : ChannelInvariant (op.minted s) := by
    rw [StoreOp.minted]
    split
    · exact ⟨h.ledger.transfer ⟨rfl, rfl⟩ (le_refl _), h.channels⟩
    · exact h
  exact (apply_effects s op hKeeps).invariant _ (fun _ _ hEffect hInv => hInv.effect hEffect) hMinted

/-! ## A binding that expires before its allocation -/

namespace StaleChannel

def client (port : UInt16) : SocketAddr := .new (.v4 ⟨192, 0, 2, 1⟩) port

def request (clientPort : UInt16) : CreateRequest :=
  ⟨client clientPort, .new (.v4 ⟨198, 51, 100, 1⟩) 40000, "u", [], 600, "r", none⟩

def draw : StoreOp := .pool none (fun pool => pool.allocate.2)

def clockAt (t : Nat) : Clock := ⟨secs t, t * 1000⟩

/-- The sweep drops the expired channel of client 1; then its port is given to client 2. -/
def ops : List StoreOp :=
  [draw, .create (clockAt 0) (request 1), .addChannel (clockAt 0) (client 1) 0x4000 (client 9),
    .refresh .stored (clockAt 500) (client 1) 600,
    .cleanup .stored ⟨secs 601, fun _ => secs 601, fun _ => secs 601, fun _ => secs 601, fun _ => clockAt 601⟩ 64,
    .forceRemove .stored (clockAt 602) (client 1), draw, draw, .create (clockAt 603) (request 2)]

theorem draw_orderly {s : AllocationStore} (h : s.ports.contains s.ports.nextPort = true) : draw.Orderly s :=
  poolUse_allocate nofun h

theorem orderly : Trace.Allowed StoreOp.apply StoreOp.Orderly (.configured 40000 40001 0 0 []) ops := by
  refine ⟨draw_orderly ?_, ?_, trivial, trivial, trivial, trivial, draw_orderly ?_, draw_orderly ?_, ?_, trivial⟩
  · decide +kernel
  · change InHand _ 40000
    decide +kernel
  · decide +kernel
  · decide +kernel
  · change InHand _ 40000
    decide +kernel

/-- The entry of the first owner survives the reuse of its port. -/
theorem entry_survives : Trace.Allowed StoreOp.apply StoreOp.Orderly (.configured 40000 40001 0 0 []) ops ∧
    ¬ ChannelsAgree (Trace.run StoreOp.apply (.configured 40000 40001 0 0 []) ops) := by
  refine ⟨orderly, fun h => ?_⟩
  have hEntry : (Trace.run StoreOp.apply (.configured 40000 40001 0 0 []) ops).getByChannel 40000 0x4000 =
      some (client 1) := by decide +kernel
  have hGone : ((Trace.run StoreOp.apply (.configured 40000 40001 0 0 []) ops).allocations.get (client 1)).isNone =
      true := by decide +kernel
  obtain ⟨a, hGet, -⟩ := (h 40000 0x4000 (client 1)).mp hEntry
  rw [hGet] at hGone
  cases hGone

end StaleChannel

theorem channels_agree (minPort maxPort : UInt16) (random : UInt32) (maxAllocations : Nat)
    (tenants : List TenantRange) {ops : List StoreOp}
    (hRun : Trace.Allowed StoreOp.apply (fun s op => op.Orderly s ∧ op.KeepsBindings s)
      (.configured minPort maxPort random maxAllocations tenants) ops) :
    ChannelsAgree (Trace.run StoreOp.apply (.configured minPort maxPort random maxAllocations tenants) ops) := by
  have hChannels : IndexedBy (configured minPort maxPort random maxAllocations tenants).channelToClient
      (configured minPort maxPort random maxAllocations tenants).allocations CarriesChannel := by
    rw [configured_eq]
    exact IndexedBy.empty
  exact (hRun.invariant ChannelInvariant (fun s op h hOk => h.apply hOk.1 hOk.2)
    ⟨ledger_configured minPort maxPort random maxAllocations tenants, hChannels⟩).agree

theorem channels_agree_bound :
    (Trace.run StoreOp.apply (.configured 40000 40001 0 0 []) (StaleChannel.ops.take 3)).getByChannel 40000 0x4000 =
      some (StaleChannel.client 1) ∧
    ChannelsAgree (Trace.run StoreOp.apply (.configured 40000 40001 0 0 []) (StaleChannel.ops.take 3)) := by
  refine ⟨by decide +kernel, channels_agree 40000 40001 0 0 [] ?_⟩
  exact ⟨⟨StaleChannel.orderly.1, trivial⟩, ⟨StaleChannel.orderly.2.1, trivial⟩, ⟨trivial, trivial⟩, trivial⟩

end Turna.Session
