/-
# Statistics

What a server logs from time to time about its rooms, its sessions and the jobs
that wait.
-/

import ChatHall.Log
import ChatHall.Server.House

namespace ChatHall.Server

structure Statistics where
  rooms : Nat
  sessions : Nat
  queues : Nat
  pendingTotal : Nat
  /-- The queues with waiting jobs, the longest first. -/
  busy : List (String × Nat)
  deriving Repr, DecidableEq

/-- The entries about the figures: the totals, the names of the rooms, and one entry for
each busy queue. -/
def Statistics.entries (s : Statistics) (rooms : List String) : List Log.Entry :=
  let entry (level : Log.Level) (message : String) (fields : List (String × String)) : Log.Entry :=
    { level, target := "tcpserver::server", message, fields }
  let names := ", ".intercalate (rooms.map Text.quoted)
  entry .info "📊 잡 큐 현황"
      [("sessions", toString s.sessions), ("rooms", toString s.rooms),
        ("queues", toString s.queues), ("pending_total", toString s.pendingTotal)] ::
    entry .debug "방 목록" [("rooms", s!"[{names}]")] ::
    s.busy.map fun (queue, n) =>
      entry .debug "대기 중인 잡" [("queue", queue), ("pending", toString n)]

namespace World

def statistics (w : World) (h : HallRef) : Statistics :=
  let waiting := w.pool.waitingByName
  { rooms := ((w.hall? h).map fun hall => hall.rooms.size).getD 0
    sessions := ((w.hall? h).map fun hall => hall.sessions.size).getD 0
    queues := waiting.length
    pendingTotal := waiting.foldl (fun total (_, n) => total + n) 0
    busy := (waiting.filter fun (_, n) => 0 < n).mergeSort fun a b => b.2 ≤ a.2 }

end World

end ChatHall.Server
