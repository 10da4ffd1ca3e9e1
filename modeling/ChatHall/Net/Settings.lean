/-
# Session settings

Buffer sizes, backlog and packet limits of a session, with their defaults and
the check that is made before a listener opens its port.
-/

import ChatHall.Net.Error

namespace ChatHall.Net

/-- The settings that sessions and listeners share. -/
structure Settings where
  recvBufferSize : Nat := 8192
  sendChunkSize : Nat := 8192
  listenBacklog : Nat := 10
  maxPacketId : UInt16 := 1000
  deriving Repr, DecidableEq

namespace Settings

/-- The largest frame: a frame has to fit into one receive buffer. -/
def maxFrameSize (s : Settings) : Nat := s.recvBufferSize

def limits (s : Settings) : Wire.Limits := ⟨s.maxPacketId, s.maxFrameSize⟩

/-- Refuses sizes that no session could work with; the first bad one is named. -/
def validate (s : Settings) : Except Error Unit :=
  if s.recvBufferSize < 64 then
    .error (.config "recv_buffer_size" s!"최소 64바이트 이상이어야 합니다 (현재: {s.recvBufferSize})")
  else if s.sendChunkSize = 0 then .error (.config "send_chunk_size" "0일 수 없습니다")
  else if s.listenBacklog = 0 then .error (.config "listen_backlog" "0일 수 없습니다")
  else .ok ()

end Settings

end ChatHall.Net
