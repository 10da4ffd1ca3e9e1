/-
# The receiving side

The receive loop: make room, read as much as fits, hand all waiting bytes to the
handler, and drop what it is done with. The loop ends when the handler fails or
claims more than it was given, and when a buffer full of waiting bytes leaves no
room to read.
-/

import ChatHall.Buffer.Receive
import ChatHall.Log
import ChatHall.Session.Handler

namespace ChatHall.Session

/-- The buffer of a session and what has gone through it. -/
structure Receiver where
  buffer : Buffer.Receive
  bytesReceived : Nat := 0
  /-- How many reads have come. -/
  completions : Nat := 0

/-- Why the receive loop ends of its own. -/
inductive Ending
  | full (capacity : Nat)
  /-- More was read than there was room for. -/
  | overrun
  | failed (e : Net.Error)
  | panicked (p : Panic)
  | overclaimed (claimed given : Nat)
  deriving Repr, DecidableEq

def logTarget : String := "servercore::session"

def panicEntry (hook : String) (p : Panic) : Log.Entry :=
  ⟨.error, logTarget, s!"세션 핸들러 패닉: {p.message}", [("hook", s!"\"{hook}\"")]⟩

/-- What the log says of an ending. -/
def Ending.entry? : Ending → Option Log.Entry
  | full capacity =>
    some ⟨.warn, logTarget, s!"수신 버퍼가 가득 찼습니다: 버퍼({capacity}바이트)보다 큰 패킷", []⟩
  | overrun => none
  | failed e => some ⟨.warn, logTarget, s!"패킷 처리 실패, 연결을 끊습니다: {e.message}", []⟩
  | panicked p => some (panicEntry "on_recv" p)
  | overclaimed claimed given =>
    some ⟨.warn, logTarget, s!"처리량({claimed})이 수신 데이터({given})보다 큽니다", []⟩

namespace Receiver

def new (capacity : Nat) : Receiver := { buffer := Buffer.Receive.new capacity }

/-- Makes room for the next read. -/
def prepare (r : Receiver) : Except Ending Receiver :=
  let buffer := r.buffer.compact
  if buffer.freeSize = 0 then .error (.full buffer.capacity) else .ok { r with buffer }

def takeIn (r : Receiver) (data : Bytes) : Except Ending Receiver :=
  match (r.buffer.store data).commit? data.length with
  | none => .error .overrun
  | some buffer =>
    .ok {
      buffer
      bytesReceived := r.bytesReceived + data.length
      completions := r.completions + 1 }

/-- Drops what the handler is done with. -/
def judge (r : Receiver) : Verdict → Except Ending Receiver
  | .failed e => .error (.failed e)
  | .panicked p => .error (.panicked p)
  | .consumed n =>
    match r.buffer.consume? n with
    | none => .error (.overclaimed n r.buffer.dataSize)
    | some buffer => .ok { r with buffer }

variable {σ : Type}

/-- One turn of the loop with what was read in it. -/
def turn (hook : σ → Bytes → σ × Verdict) (s : σ) (r : Receiver) (data : Bytes) :
    σ × Except Ending Receiver :=
  match r.prepare with
  | .error e => (s, .error e)
  | .ok r =>
    match r.takeIn data with
    | .error e => (s, .error e)
    | .ok r =>
      let (s, verdict) := hook s r.buffer.waiting
      (s, r.judge verdict)

/-- The loop over some reads, up to its end if it has one. -/
def run (hook : σ → Bytes → σ × Verdict) : σ → Receiver → List Bytes → σ × Except Ending Receiver
  | s, r, [] => (s, .ok r)
  | s, r, data :: later =>
    match turn hook s r data with
    | (s, .error e) => (s, .error e)
    | (s, .ok r) => run hook s r later

end Receiver

end ChatHall.Session
