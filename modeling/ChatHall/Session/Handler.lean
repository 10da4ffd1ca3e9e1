/-
# Handlers

What a session leaves to whoever uses it: four hooks, called when the connection
opens, when bytes have come, when a batch has been sent, and when the connection
closes. A hook may send and disconnect, and it may panic after that.
-/

import ChatHall.Net.Error
import ChatHall.Panic
import ChatHall.Wire.Frame
import ChatHall.Wire.Tagged

namespace ChatHall.Session

inductive Action
  | send (segment : Bytes)
  | sendMany (segments : List Bytes)
  | disconnect
  deriving Repr, DecidableEq

/-- How the hook for bytes comes back. -/
inductive Verdict
  /-- That many bytes are done with. -/
  | consumed (n : Nat)
  | failed (e : Net.Error)
  | panicked (p : Panic)
  deriving Repr, DecidableEq

/-- What a hook comes to: a new state, what it did, and its panic if it had one. -/
structure Reaction (σ : Type) where
  state : σ
  actions : List Action := []
  panic? : Option Panic := none

/-- The hooks, with a state that they share. -/
structure Handler (σ : Type) where
  onConnected : σ → Reaction σ := fun s => { state := s }
  /-- Gets all waiting bytes. -/
  onReceived : σ → Bytes → σ × List Action × Verdict
  /-- Gets the size of the batch. -/
  onSent : σ → Nat → Reaction σ := fun s _ => { state := s }
  onDisconnected : σ → Reaction σ := fun s => { state := s }

/-- Why a receiver of packets stops the packets: an error, or a panic. -/
inductive Refusal
  | error (e : Net.Error)
  | panic (p : Panic)
  deriving Repr, DecidableEq

/-- The verdict that a refusal amounts to. -/
def Refusal.verdict : Refusal → Verdict
  | error e => .failed e
  | panic p => .panicked p

/-- The verdict on a buffer that has been read as packets. -/
def verdictOf (i : Wire.Intake Refusal) : Verdict :=
  match i.outcome with
  | .ok n => .consumed n
  | .error (.fault f) => .failed (.ofFault f)
  | .error (.refused r) => r.verdict

/-- How the waiting bytes are cut into packets. -/
inductive Format
  /-- All of them are one packet without an id. -/
  | raw
  | tagged (maxPacketId : UInt16)
  | framed (limits : Wire.Limits)
  deriving Repr, DecidableEq

end ChatHall.Session
