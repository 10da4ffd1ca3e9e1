/-
# Chat errors

Why a request of a client is refused, and why a client cannot be reached.
-/

import ChatHall.Net.Error

namespace ChatHall.Chat

inductive Error
  | unknownPacket (id : UInt16)
  | badCommand (message : String)
  | invalidPayload (packetId : UInt16) (message : String)
  | invalidMessage (message : String)
  | roomNotFound (room : String)
  | notInRoom (sessionId : Nat)
  | sessionClosed (sessionId : Nat)
  deriving Repr, DecidableEq

def Error.message : Error → String
  | unknownPacket id => s!"알 수 없는 패킷 ID: {id}"
  | badCommand m => s!"잘못된 명령: {m}"
  | invalidPayload id m => s!"페이로드 파싱 실패 [패킷 {id}]: {m}"
  | invalidMessage m => s!"잘못된 메시지: {m}"
  | roomNotFound room => s!"방을 찾을 수 없습니다: {room}"
  | notInRoom id => s!"세션 {id}은(는) 방에 입장해 있지 않습니다"
  | sessionClosed id => s!"세션 {id} 연결이 종료되었습니다"

end ChatHall.Chat
