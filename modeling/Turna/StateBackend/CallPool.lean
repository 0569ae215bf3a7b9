import Mathlib.Logic.Function.Basic
import Turna.Lib.Trace
import Turna.StateBackend.CommandLog

/-! # The pool of connections

A call writes its request to the connection of its slot and takes the next response from it. Nothing compares the two.
-/

namespace Turna.StateBackend.Tarantool
open Lib

/-- `owed` are the requests whose responses were not read to the end, `none` one put together from parts. `cut` and
`begun` tell that the last request was written, or the first response read, in part. -/
structure Conn where
  cut : Bool
  owed : List (Option Nat)
  begun : Bool

def Conn.fresh : Conn := ⟨false, [], false⟩

structure Attempt where
  slot : Nat
  sync : Nat
  retried : Bool

inductive Stage where
  | writing
  | awaiting
  | reading

/-- The holder of a slot has its connection, which was `taken` in some state. -/
inductive Phase where
  | idle
  | queued (a : Attempt)
  | holding (a : Attempt) (taken conn : Conn) (stage : Stage)
  | poisoning (slot : Nat)
  | connecting (slot : Nat)
  | installing (slot : Nat)
  | answered (sync : Nat) (reply : Option Nat)
  | failed (e : BackendError)
  | dropped

inductive Slot where
  | locked
  | free (conn : Option Conn)

structure Pool where
  slots : Nat → Slot
  size : Nat
  nextSlot : Nat
  nextId : Nat

/-- What happens to a call next. `broken` is an error of the connection, `elapse` the deadline. -/
inductive Action where
  | call
  | lock
  | write (whole : Bool)
  | readPart
  | readSize
  | tooLarge (text : String)
  | malformed (text : String)
  | readBody
  | broken (text : String)
  | connected
  | elapse
  | drop

namespace Pool

variable (p : Pool)

def put (slot : Nat) (conn : Option Conn) : Pool := { p with slots := Function.update p.slots slot (.free conn) }

def enter (slot : Nat) (retried : Bool) : Pool × Phase :=
  ({ p with nextId := p.nextId + 1 }, .queued ⟨slot, p.nextId, retried⟩)

/-- A connection error is retried once, after reconnecting. -/
def lost (a : Attempt) (text : String) : Phase :=
  if a.retried then .failed (.connection text) else .connecting a.slot

def lock : Phase → Pool × Phase
  | .queued a =>
    match p.slots a.slot with
    | .locked => (p, .queued a)
    | .free none => (p, lost a "no connection in slot")
    | .free (some conn) =>
      ({ p with slots := Function.update p.slots a.slot .locked }, .holding a conn conn .writing)
  | .poisoning slot =>
    match p.slots slot with
    | .locked => (p, .poisoning slot)
    | .free _ => (p.put slot none, .failed .timeout)
  | .installing slot =>
    match p.slots slot with
    | .locked => (p, .installing slot)
    | .free _ => (p.put slot (some .fresh)).enter slot true
  | phase => (p, phase)

def hold (a : Attempt) (taken conn : Conn) : Stage → Action → Pool × Phase
  | .writing, .write false => (p, .holding a taken { conn with cut := true } .writing)
  | .writing, .write true =>
    let request := if taken.cut then none else some a.sync
    (p, .holding a taken ⟨false, conn.owed ++ [request], conn.begun⟩ .awaiting)
  | .awaiting, .readSize => (p, .holding a taken { conn with begun := true } .reading)
  | .awaiting, .tooLarge text => (p.put a.slot none, lost a text)
  | .awaiting, .malformed text => (p.put a.slot (some { conn with begun := true }), .failed (.serialization text))
  | .reading, .readBody =>
    match conn.owed with
    | [] => (p, .holding a taken conn .reading)
    | request :: owed =>
      -- What is left of a response is taken for a response.
      if taken.begun then (p.put a.slot (some conn), .answered a.sync none)
      else (p.put a.slot (some ⟨conn.cut, owed, false⟩), .answered a.sync request)
  | stage, .readPart => (p, .holding a taken { conn with begun := true } stage)
  | _, .broken text => (p.put a.slot (some conn), lost a text)
  | _, .elapse => (p.put a.slot (some conn), .poisoning a.slot)
  | _, .drop => (p.put a.slot (some conn), .dropped)
  | stage, _ => (p, .holding a taken conn stage)

def advance : Phase → Action → Pool × Phase
  | .idle, .call => { p with nextSlot := p.nextSlot + 1 }.enter (p.nextSlot % p.size) false
  | .holding a taken conn stage, action => p.hold a taken conn stage action
  | .queued a, .elapse => (p, .poisoning a.slot)
  | .connecting slot, .connected => (p, .installing slot)
  | .connecting _, .broken text => (p, .failed (.connection text))
  | .answered sync reply, _ => (p, .answered sync reply)
  | .failed e, _ => (p, .failed e)
  | _, .drop => (p, .dropped)
  | phase, .lock => p.lock phase
  | phase, _ => (p, phase)

end Pool

structure Callers where
  pool : Pool
  phase : Nat → Phase

namespace Callers

def start (size : Nat) : Callers := ⟨⟨fun _ => .free (some .fresh), size, 0, 0⟩, fun _ => .idle⟩

def apply (s : Callers) (op : Nat × Action) : Callers :=
  let next := s.pool.advance (s.phase op.1) op.2
  ⟨next.1, Function.update s.phase op.1 next.2⟩

end Callers

/-- A call takes a slot only with no connection, or one on which every request was answered. -/
def Ready (s : Callers) (op : Nat × Action) : Prop :=
  ∀ a conn, s.phase op.1 = .queued a → s.pool.slots a.slot = .free (some conn) → op.2 = .lock → conn = .fresh

def Phase.Own : Phase → Prop
  | .holding _ taken conn .writing => taken = .fresh ∧ conn.owed = []
  | .holding a taken conn _ => taken = .fresh ∧ conn.owed = [some a.sync]
  | .answered sync reply => reply = some sync
  | _ => True

section Run

variable {p : Pool} {phase : Phase} {action : Action}

end Run

end Turna.StateBackend.Tarantool
