/-
# A recording handler

A handler that notes what comes and reacts as it was told to beforehand: it
refuses a packet, panics, sends packets back, or follows a script of reactions to
whole buffers.
-/

import ChatHall.Session.Handler

namespace ChatHall.Session

/-- What a recorder does with one packet. -/
structure Recorder.Habits where
  /-- The packet to refuse, by its number from zero, and how. -/
  refuse : List (Nat × Refusal) := []
  /-- Whether packets are sent back. -/
  echo : Bool := false
  /-- Whether JSON packets are passed over. -/
  ignoreJson : Bool := false
  /-- Hooks that panic, by name. -/
  panics : List (String × Panic) := []

/-- One entry of a script. -/
structure Recorder.Cue where
  echo : Bool := false
  disconnect : Bool := false
  /-- The verdict on a buffer of some size. -/
  verdict : Nat → Verdict := .consumed

structure Recorder where
  /-- Whole buffers, or packets. -/
  packets : List (Bytes ⊕ Wire.Packet) := []
  /-- How many were recorded and forgotten since. -/
  forgotten : Nat := 0
  script : List Recorder.Cue := []
  connects : Nat := 0
  disconnects : Nat := 0

namespace Recorder

def record (r : Recorder) (packets : List (Bytes ⊕ Wire.Packet)) : Recorder :=
  { r with packets := r.packets ++ packets }

def count (r : Recorder) : Nat := r.forgotten + r.packets.length

/-- The recorder with empty pages; the packets go on being numbered. -/
def forget (r : Recorder) : Recorder := { r with packets := [], forgotten := r.count }

def Habits.judge (h : Habits) (number : Nat) : Except Refusal Unit :=
  match h.refuse.lookup number with
  | some refusal => .error refusal
  | none => .ok ()

/-- A reaction that panics if the hook is one that does. -/
def Habits.reaction (h : Habits) (hook : String) (state : Recorder) : Reaction Recorder :=
  { state, panic? := h.panics.lookup hook }

/-- The whole buffer is one packet. -/
def onBuffer (h : Habits) (r : Recorder) (buffer : Bytes) : Recorder × List Action × Verdict :=
  if buffer.isEmpty then (r, [], .consumed 0)
  else
    let recorded := r.record [.inl buffer]
    match h.judge r.count with
    | .error refusal => (recorded, [], refusal.verdict)
    | .ok () => (recorded, if h.echo then [.send buffer] else [], .consumed buffer.length)

/-- Whether a packet is recorded. -/
def Habits.notes (h : Habits) (p : Wire.Packet) : Bool :=
  match p with
  | .binary .. => true
  | .json _ => !h.ignoreJson

/-- The buffer is read as packets. -/
def onPackets (h : Habits)
    (read : (List Wire.Packet → Except Refusal Unit) → Bytes → Wire.Intake Refusal)
    (r : Recorder) (buffer : Bytes) : Recorder × List Action × Verdict :=
  let accept (seen : List Wire.Packet) : Except Refusal Unit :=
    match seen with
    | p :: earlier =>
      if h.notes p then h.judge (r.count + (earlier.filter h.notes).length) else .ok ()
    | [] => .ok ()
  let intake := read accept buffer
  let noted := intake.packets.filter h.notes
  let taken :=
    match intake.outcome with
    | .error (.refused _) => noted.dropLast
    | _ => noted
  let replies := if h.echo then taken.map fun p => Action.send (Wire.Frame.ofPacket p) else []
  (r.record (noted.map .inr), replies, verdictOf intake)

def onCue (r : Recorder) (buffer : Bytes) : Recorder × List Action × Verdict :=
  let cue := r.script.head?.getD {}
  let replies :=
    (if cue.echo then [Action.send buffer] else []) ++ if cue.disconnect then [.disconnect] else []
  ({ r.record [.inl buffer] with script := r.script.drop 1 }, replies, cue.verdict buffer.length)

/-- A recorder for a format, or one that follows its script. -/
def handler (h : Habits) (format : Option Format) : Handler Recorder where
  onConnected r := h.reaction "on_connected" { r with connects := r.connects + 1 }
  onReceived r buffer :=
    match format with
    | none => onCue r buffer
    | some .raw => onBuffer h r buffer
    | some (.tagged maxPacketId) => onPackets h (Wire.Tagged.read maxPacketId) r buffer
    | some (.framed limits) => onPackets h (Wire.Frame.read limits) r buffer
  onSent r _ := h.reaction "on_send" r
  onDisconnected r := h.reaction "on_disconnected" { r with disconnects := r.disconnects + 1 }

end Recorder

end ChatHall.Session
