/-
# Network errors

What can go wrong between a peer and its session. All of them end the connection
that they concern.
-/

import ChatHall.Net.Address
import ChatHall.Wire.Packet

namespace ChatHall.Net

/-- A failure reported by the operating system, or by something in its place. -/
inductive IoError
  | connectionRefused
  | networkUnreachable
  | addressNotAvailable
  | invalidArgument
  | noSuchDevice
  | other (text : String)
  deriving Repr, DecidableEq

def IoError.message : IoError → String
  | connectionRefused => "Connection refused (os error 111)"
  | networkUnreachable => "Network is unreachable (os error 101)"
  | addressNotAvailable => "Cannot assign requested address (os error 99)"
  | invalidArgument => "Invalid argument (os error 22)"
  | noSuchDevice => "No such device (os error 19)"
  | other text => text

inductive Error
  /-- A socket failed. -/
  | io (source : IoError)
  /-- The peer broke the protocol. -/
  | protocol (message : String)
  /-- The session has ended already. -/
  | disconnected (sessionId : Nat)
  /-- No connection could be made. -/
  | connect (address : String) (source : IoError)
  /-- A setting is not acceptable. -/
  | config (key message : String)
  deriving Repr, DecidableEq

namespace Error

def message : Error → String
  | io source => s!"소켓 I/O 에러: {source.message}"
  | protocol m => s!"프로토콜 에러: {m}"
  | disconnected id => s!"세션 {id} 연결이 이미 종료되었습니다"
  | connect address source => s!"연결 실패 [{address}]: {source.message}"
  | config key m => s!"설정 에러 [키: {key}]: {m}"

/-- The failure behind the error, if it has one. -/
def source? : Error → Option IoError
  | io source | connect _ source => some source
  | _ => none

/-- The error followed by the failure behind it. -/
def chain (e : Error) : String :=
  match e.source? with
  | some source => s!"{e.message}: {source.message}"
  | none => e.message

/-- The error that a bad byte stream amounts to. -/
def ofFault (f : Wire.Fault) : Error := protocol f.message

end Error

/-- The address that a text writes, or the error that names the text. -/
def parseAddress (text : String) : Except Error Address :=
  match Address.parse? text with
  | some a => .ok a
  | none => .error (.config "addr" s!"잘못된 주소 '{text}': invalid socket address syntax")

end ChatHall.Net
