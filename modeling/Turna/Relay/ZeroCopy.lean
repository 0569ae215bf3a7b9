import Turna.Relay.Outcomes

/-! # The borrowed path and the owned path

The entry points for packets of clients with all they touch: the processor, and the counters, limiters, ban
list, sampler and analyser, whose state is arbitrary here.
-/

namespace Turna.Relay
open Lib Net Stun Session

inductive Metric where
  | packetsReceived
  | bytesReceived
  | malformedPackets
  | quotaExceeded
  | zeroCopyForwards
  | packetsSent
  | bytesSent

/-- `stun` is what the handling of a STUN message does to the counters and limiters. -/
structure Devices (σ : Type) where
  count : Metric → Nat → σ → σ
  banned : SocketAddr → σ → Bool × σ
  checkIngress : IpAddr → σ → Bool × σ
  checkIngressIp : IpAddr → σ → Bool × σ
  noteRateLimited : SocketAddr → σ → σ
  shouldSample : σ → Bool × σ
  observe : String → σ → σ
  checkBandwidth : SocketAddr → Nat → σ → Bool × σ
  withinCapacity : Nat → σ → Bool × σ
  analyze : Bytes → SocketAddr → σ → σ
  stun : Processor → Bytes → SocketAddr → Bool → σ → σ

structure Station (σ : Type) where
  processor : Processor
  devices : σ

namespace Station

variable {σ : Type}

def ask (call : σ → Bool × σ) : StateM (Station σ) Bool :=
  modifyGet fun s => ((call s.devices).1, { s with devices := (call s.devices).2 })

def tell (call : σ → σ) : StateM (Station σ) Unit := modify fun s => { s with devices := call s.devices }

variable (d : Devices σ) (env : Surroundings)

def overBandwidth (a : Allocation) : StateM (Station σ) Bool := do
  let (limit, disabled) := (← get).processor.store.bandwidthPolicyForUser a.realm a.tenantId a.username
  if disabled then return true
  else if limit == 0 then return false
  else return !(← ask (d.checkBandwidth a.clientAddr limit))

variable (raw : Bytes) (src : SocketAddr)

/-- Offset and length of the payload in `raw`, its target and the relay port, unless the packet is dropped. -/
def channelDataDecision : StateM (Station σ) (Option (Nat × Nat × SocketAddr × UInt16)) := do
  match decodeChannelData raw, (← get).processor.store.get src with
  | .ok (channel, length), some a =>
    if a.isExpired env.clock.now then return none
    else match a.getChannelPeer env.clock.now channel with
      | none => return none
      | some peerAddr =>
        if ← overBandwidth d a then
          tell (d.count .quotaExceeded 1)
          return none
        else if !(← ask (d.withinCapacity length)) then return none
        else
          modify fun s => { s with processor.store := s.processor.store.meter src (a.addBytes length) }
          tell (d.count .zeroCopyForwards 1)
          tell (d.count .packetsSent 1)
          tell (d.count .bytesSent length)
          tell (d.analyze (raw.slice 4 length) src)
          return some (4, length, peerAddr, a.relayAddr.port)
  | _, _ => return none

def sampled {α : Type} (histogram : String) (work : StateM (Station σ) α) : StateM (Station σ) α := do
  if ← ask d.shouldSample then
    let result ← work
    tell (d.observe histogram)
    return result
  else work

def processChannelData : StateM (Station σ) (List Action) := do
  match ← channelDataDecision d env raw src with
  | some (offset, len, target, relayPort) => return [.forward (raw.slice offset len) target relayPort]
  | none => return [.none]

def processStun (ingressTcp : Bool) : StateM (Station σ) (List Action) :=
  modifyGet fun s =>
    let (actions, p) := s.processor.processStun env raw src ingressTcp
    (actions, ⟨p, d.stun s.processor raw src ingressTcp s.devices⟩)

def processImpl (ingressTcp : Bool) : StateM (Station σ) (List Action) := do
  tell (d.count .packetsReceived 1)
  tell (d.count .bytesReceived raw.length)
  if ← ask (d.banned src) then return [.none]
  else if !isChannelData raw && !isStunMessage raw then
    tell (d.count .malformedPackets 1)
    return [.none]
  else if isChannelData raw then
    if !(← ask (d.checkIngressIp src.ip)) then
      tell (d.noteRateLimited src)
      return [.none]
    else sampled d "turna_relay_forward_duration_seconds" (processChannelData d env raw src)
  else if !(← ask (d.checkIngress src.ip)) then
    tell (d.noteRateLimited src)
    return [.none]
  else sampled d "turna_stun_request_duration_seconds" (processStun d env raw src ingressTcp)

def process : StateM (Station σ) (List Action) := processImpl d env raw src false

def processSlice : StateM (Station σ) (List Action) := do
  if env.zerocopyForward && isChannelData raw then
    tell (d.count .packetsReceived 1)
    tell (d.count .bytesReceived raw.length)
    if ← ask (d.banned src) then return [.none]
    else if !(← ask (d.checkIngressIp src.ip)) then
      tell (d.noteRateLimited src)
      return [.none]
    else
      match ← sampled d "turna_relay_forward_duration_seconds" (channelDataDecision d env raw src) with
      | some (offset, len, target, relayPort) => return [.forwardZeroCopy offset len target relayPort]
      | none => return [.none]
  else process d env raw src

/-! ## The same steps -/

/-- The action with the bytes that a borrowed payload stands for. -/
def copied : Action → Action
  | .forwardZeroCopy offset len target relayPort => .forward (raw.slice offset len) target relayPort
  | x => x

theorem map_sampled {α β : Type} (f : α → β) (histogram : String) (work : StateM (Station σ) α) :
    f <$> sampled d histogram work = sampled d histogram (f <$> work) := by
  simp only [sampled, map_bind]
  refine bind_congr fun hit => ?_
  split <;> simp

theorem copied_processSlice (h : (env.zerocopyForward && isChannelData raw) = true) :
    List.map (copied raw) <$> processSlice d env raw src = process d env raw src := by
  have hChannel : processChannelData d env raw src = (fun decision => match decision with
      | some (offset, len, target, relayPort) => [.forward (raw.slice offset len) target relayPort]
      | none => [.none]) <$> channelDataDecision d env raw src := by
    rw [processChannelData, map_eq_pure_bind]
    refine bind_congr fun decision => ?_
    split <;> rfl
  rw [processSlice, process, processImpl, if_pos h, hChannel, ← map_sampled]
  rw [Bool.and_eq_true] at h
  simp only [map_bind]
  refine bind_congr fun _ => bind_congr fun _ => bind_congr fun hit => ?_
  simp only [h.2, Bool.not_true, Bool.false_and, Bool.false_eq_true, if_false, if_true]
  split
  · rfl
  rw [map_bind]
  refine bind_congr fun ok => ?_
  split
  · rfl
  rw [map_bind, map_eq_pure_bind]
  refine bind_congr fun decision => ?_
  cases decision <;> rfl

/-! ## Results -/

def Ensures {α : Type} (m : StateM (Station σ) α) (P : α → Prop) : Prop := ∀ s, P (m.run s).1

section Rules

variable {d} {α β : Type} {m : StateM (Station σ) α} {f : α → StateM (Station σ) β} {P : α → Prop} {Q : β → Prop}

theorem ensures_pure {x : α} (h : P x) : Ensures (σ := σ) (pure x) P := fun _ => h

theorem Ensures.bind (hFirst : Ensures m P) (h : ∀ x, P x → Ensures (f x) Q) : Ensures (m >>= f) Q :=
  fun s => h _ (hFirst s) _

theorem ensures_bind (h : ∀ x, Ensures (f x) Q) : Ensures (m >>= f) Q := fun _ => h _ _

theorem Ensures.sampled (h : Ensures m P) {histogram : String} : Ensures (sampled d histogram m) P := by
  refine ensures_bind fun hit => ?_
  split
  · exact h.bind fun x hx => ensures_bind fun _ => ensures_pure hx
  · exact h

end Rules

theorem ensures_channelDataDecision : Ensures (channelDataDecision d env raw src)
    fun decision => ∀ offset len target relayPort, decision = some (offset, len, target, relayPort) →
      offset + len ≤ raw.length := by
  refine ensures_bind fun s => ?_
  split
  · next hDecode _ =>
    split
    · exact ensures_pure nofun
    split
    · exact ensures_pure nofun
    refine ensures_bind fun reached => ?_
    split
    · exact ensures_bind fun _ => ensures_pure nofun
    refine ensures_bind fun ok => ?_
    split
    · exact ensures_pure nofun
    refine ensures_bind fun _ => ensures_bind fun _ => ensures_bind fun _ => ensures_bind fun _ =>
      ensures_bind fun _ => ensures_pure ?_
    rintro _ _ _ _ ⟨⟩
    exact length_of_decodeChannelData hDecode
  · exact ensures_pure nofun

theorem owned_processStun (p : Processor) (ingressTcp : Bool) : Owned (p.processStun env raw src ingressTcp).1 := by
  rw [Processor.processStun]
  split
  · exact plain_none.owned
  next hDecode =>
  split
  · dsimp only
    split
    · exact (plain_cons rfl plain_nil).owned
    · exact plain_none.owned
    · exact (served_dispatchStun hDecode).owned
  · exact (served_dispatchStun hDecode).owned

theorem ensures_process : Ensures (process d env raw src) Owned := by
  have hDropped : Ensures (σ := σ) (pure [.none]) Owned := ensures_pure plain_none.owned
  refine ensures_bind fun _ => ensures_bind fun _ => ensures_bind fun hit => ?_
  split
  · exact hDropped
  split
  · exact ensures_bind fun _ => hDropped
  split
  · refine ensures_bind fun ok => ?_
    split
    · exact ensures_bind fun _ => hDropped
    refine Ensures.sampled (ensures_bind fun decision => ?_)
    split
    · exact ensures_pure (by simp [Owned])
    · exact hDropped
  · refine ensures_bind fun ok => ?_
    split
    · exact ensures_bind fun _ => hDropped
    · exact Ensures.sampled fun s => owned_processStun env raw src s.processor false

theorem map_copied {actions : List Action} (h : Owned actions) : actions.map (copied raw) = actions := by
  refine (List.map_congr_left fun x hx => ?_).trans (List.map_id actions)
  unfold copied
  split
  · exact absurd hx (h _ _ _ _)
  · rfl

def WithinRaw (actions : List Action) : Prop :=
  ∀ offset len target relayPort, .forwardZeroCopy offset len target relayPort ∈ actions → offset + len ≤ raw.length

theorem ensures_processSlice : Ensures (processSlice d env raw src) (WithinRaw raw) := by
  have hOwned {actions : List Action} (h : Owned actions) : WithinRaw raw actions :=
    fun _ _ _ _ hIn => absurd hIn (h _ _ _ _)
  have hDropped : Ensures (σ := σ) (pure [.none]) (WithinRaw raw) := ensures_pure (hOwned plain_none.owned)
  rw [processSlice]
  split
  · refine ensures_bind fun _ => ensures_bind fun _ => ensures_bind fun hit => ?_
    split
    · exact hDropped
    refine ensures_bind fun ok => ?_
    split
    · exact ensures_bind fun _ => hDropped
    refine (ensures_channelDataDecision d env raw src).sampled.bind fun decision hDecision => ?_
    split
    · refine ensures_pure fun _ _ _ _ hIn => ?_
      cases List.mem_singleton.mp hIn
      exact hDecision _ _ _ _ rfl
    · exact hDropped
  · exact fun s => hOwned (ensures_process d env raw src s)

/-- The same effects and actions, with payloads that lie within the packet. -/
theorem borrowed_path_is_owned_path (s : Station σ) : (process d env raw src).run s =
        (((processSlice d env raw src).run s).1.map (copied raw), ((processSlice d env raw src).run s).2) ∧
      WithinRaw raw ((processSlice d env raw src).run s).1 := by
  refine ⟨?_, ensures_processSlice d env raw src s⟩
  by_cases hHot : (env.zerocopyForward && isChannelData raw) = true
  · rw [← copied_processSlice d env raw src hHot]
    rfl
  · rw [processSlice, if_neg hHot, map_copied raw (ensures_process d env raw src s)]
    rfl

end Station

end Turna.Relay
