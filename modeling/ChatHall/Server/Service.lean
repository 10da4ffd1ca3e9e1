/-
# The server and its connections

A hall whose clients are reached over connections. What comes over a connection
becomes steps of the hall, and what the hall sends to a client goes out over its
connection. An event is worked off completely before the next one.
-/

import ChatHall.Net.Settings
import ChatHall.Server.Statistics
import ChatHall.Server.Visit
import ChatHall.Session.Schedule

namespace ChatHall.Server

/-- What a hall learns from a connection. -/
inductive Incoming
  | opened
  | packet (p : Wire.Packet)
  | closed
  deriving Repr, DecidableEq

/-- The hooks that pass on what comes, framed packets as such. -/
def reception (limits : Wire.Limits) : Session.Handler (List Incoming) where
  onConnected seen := { state := seen ++ [.opened] }
  onReceived seen buffer :=
    let intake := Wire.Frame.read limits (fun _ => .ok ()) buffer
    (seen ++ intake.packets.map .packet, [], Session.verdictOf intake)
  onDisconnected seen := { state := seen ++ [.closed] }

/-- The connection of a client. -/
abbrev Line := Session.Connection (List Incoming)

/-- A hall and the connections of its clients. -/
structure Service where
  world : World
  hall : HallRef
  settings : Net.Settings
  lines : Table ClientRef Line := {}
  /-- How much of what was sent to a client has gone to its connection. -/
  delivered : Table ClientRef Nat := {}

namespace Service

def start (settings : Net.Settings) (defaultRoom : String) : Service :=
  let (world, hall) := World.empty.openHall defaultRoom
  { world := (world.getOrCreateRoom hall defaultRoom).1, hall, settings }

def handler (s : Service) : Session.Handler (List Incoming) := reception s.settings.limits

/-- What a connection has passed on becomes steps of the hall. -/
def absorb (w : World) (c : ClientRef) : Incoming → World
  | .opened => w.connect c
  | .packet p => w.dispatch c p
  | .closed => w.disconnect c

/-- Everything that a connection has passed on is absorbed. -/
def collect (s : Service) (c : ClientRef) : Service :=
  match s.lines.find? c with
  | none => s
  | some line =>
    { s with
      world := line.state.foldl (fun w i => absorb w c i) s.world
      lines := s.lines.insert c { line with state := [] } }

/-- What was sent to a client and has not gone to its connection. -/
def undelivered (s : Service) (c : ClientRef) : List Outgoing :=
  ((s.world.client? c).map fun client => client.sent.drop ((s.delivered.find? c).getD 0)).getD []

/-- What was sent to a client goes to its connection. -/
def deliver (s : Service) (c : ClientRef) : Service :=
  match s.lines.find? c with
  | none => s
  | some line =>
    let fresh := s.undelivered c
    { s with
      lines := s.lines.insert c
        (fresh.foldl (fun line o => line.request s.handler (.send o.frame)) line)
      delivered := s.delivered.insert c ((s.delivered.find? c).getD 0 + fresh.length) }

/-- Works everything off: connections, queues, deliveries. -/
def settle (s : Service) : Service :=
  let s := s.lines.keys.foldl collect s
  let s := { s with world := s.world.settle }
  let s := s.lines.keys.foldl deliver s
  { s with world := s.lines.keys.foldl World.release s.world }

/-- The service with the connection of one client changed, and everything worked off. -/
def onLine (s : Service) (c : ClientRef) (f : Line → Line) : Service :=
  match s.lines.find? c with
  | none => s
  | some line => { s with lines := s.lines.insert c (f line) }.settle

def isOpen (s : Service) : Bool := (s.world.hall? s.hall).any Hall.accepting

/-- A connection is accepted, unless the hall is shut down. -/
def accept? (s : Service) : Option (Service × ClientRef) :=
  if s.isOpen then
    let (world, c) := s.world.newClient s.hall
    let line := (Session.Connection.start [] s.settings.recvBufferSize).settle s.handler
    some ({ s with world, lines := s.lines.insert c line }.settle, c)
  else none

def receive (s : Service) (c : ClientRef) (data : Bytes) : Service :=
  s.onLine c fun line => line.receive s.handler data

/-- Nothing more comes over a connection. -/
def finishReceiving (s : Service) (c : ClientRef) : Service :=
  s.onLine c fun line => line.finishReceiving s.handler

def disconnect (s : Service) (c : ClientRef) : Service :=
  s.onLine c fun line => line.request s.handler .disconnect

/-- No more connections are accepted, and all clients that are among the sessions are
disconnected. -/
def shutdown (s : Service) : Service :=
  let s := { s with world := s.world.stopAccepting s.hall }
  (((s.world.hall? s.hall).map fun hall => hall.sessions.values).getD []).foldl disconnect s

/-- What a service has for the world outside. -/
structure Output where
  /-- The bytes to write, by client. -/
  writes : List (ClientRef × Bytes)
  /-- The clients whose connections are to be shut after that. -/
  closed : List ClientRef
  log : List Log.Entry

/-- What has come up for the world outside. The service forgets it, and with it all closed
connections. -/
def takeOutput (s : Service) : Service × Output :=
  let output : Output := {
    writes := s.lines.entries.filterMap fun (c, line) =>
      if line.outbox.isEmpty then none else some (c, line.outbox)
    closed := s.lines.entries.filterMap fun (c, line) =>
      if line.isConnected then none else some c
    log := s.lines.values.flatMap (·.log) ++ s.world.reports.map fun r =>
      r.failure.entry (((s.world.pool.queue? r.queue).map Jobs.Queue.name).getD "") }
  let lines := (s.lines.filter fun (_, line) => line.isConnected).mapValues fun line =>
    { line with outbox := [], notices := [], log := [] }
  let world := s.world.mapHouse fun house =>
    { house with clients := house.clients.map fun client => { client with sent := [] } }
  ({ s with world := { world with reports := [] }, lines, delivered := {} }, output)

/-- The service at another time, in milliseconds since 1970. -/
def atTime (s : Service) (clock : Int64) : Service :=
  { s with world := s.world.mapHouse fun house => { house with clock } }

def statistics (s : Service) : List Log.Entry :=
  (s.world.statistics s.hall).entries (((s.world.hall? s.hall).map fun h => h.rooms.keys).getD [])

def send (s : Service) (c : ClientRef) (o : Outgoing) : Except Unreachable Service := do
  let world ← s.world.send c o
  .ok { s with world }.settle

end Service

end ChatHall.Server
