/-
# Connections come and go

What a server does when a connection is accepted, when a packet arrives on it,
when it closes, and when the server itself shuts down. All but the second take
several steps, and other threads may act between them.
-/

import ChatHall.Server.Sessions

namespace ChatHall.Server.World

/-- A connection is accepted: it gets a client, whose session has still to start. -/
def takeInHand (w : World) (h : HallRef) : World × ClientRef :=
  let (w, c) := w.newClient h
  (w.modifyHall h fun hall => { hall with inHand := some c }, c)

/-- The client has a connected session, which it does not know of yet. -/
def startSession (w : World) (c : ClientRef) : World :=
  w.modifyClient c fun client => { client with link := .connected }

/-- The client gets to know its session. -/
def attach (w : World) (c : ClientRef) : World :=
  w.modifyClient c fun client => { client with arrival := .attached }

def registerQueue (w : World) (c : ClientRef) : World :=
  match w.client? c with
  | some client =>
    (w.withPool (w.pool.register client.queue)).modifyClient c fun client =>
      { client with arrival := .registered }
  | none => w

/-- The client joins the sessions of its hall. -/
def enlist (w : World) (c : ClientRef) : World :=
  match w.client? c with
  | some client =>
    let w := w.modifyHall client.hall fun hall =>
      { hall with sessions := hall.sessions.insert client.sessionId c }
    w.modifyClient c fun client => { client with arrival := .enlisted }
  | none => w

/-- The default room is asked for. -/
def greet (w : World) (c : ClientRef) : World :=
  (w.pushToSession c .welcome).modifyClient c fun client => { client with arrival := .greeted }

/-- All that happens when a connection opens, without interruption. -/
def connect (w : World) (c : ClientRef) : World :=
  (((w.startSession c).attach c).registerQueue c).enlist c |>.greet c

def dispatch (w : World) (c : ClientRef) (p : Wire.Packet) : World :=
  match p with
  | .binary id payload => w.pushToSession c (.packet id payload)
  | .json text => w.pushToSession c (.command text)

/-- The session is disconnected; only the first who tries succeeds. -/
def close (w : World) (c : ClientRef) : World :=
  w.modifyClient c fun client =>
    if client.link = .connected then { client with link := .closed, departure := .closing }
    else client

def removeSession (w : World) (h : HallRef) (sessionId : Nat) : World :=
  w.modifyHall h fun hall => { hall with sessions := hall.sessions.erase sessionId }

def delist (w : World) (c : ClientRef) : World :=
  match w.client? c with
  | some client =>
    let w := w.removeSession client.hall client.sessionId
    w.modifyClient c fun client => { client with departure := .delisted }
  | none => w

/-- The farewell is pushed. -/
def seeOff (w : World) (c : ClientRef) : World :=
  (w.pushToSession c .farewell).modifyClient c fun client => { client with departure := .seenOff }

/-- All that happens when a connection closes, without interruption. -/
def disconnect (w : World) (c : ClientRef) : World :=
  match w.client? c with
  | some client =>
    if client.link = .connected then ((w.close c).delist c).seeOff c else w
  | none => w

/-- The session of a client is gone once nothing uses it. -/
def release (w : World) (c : ClientRef) : World :=
  w.modifyClient c fun client =>
    if client.link = .closed then { client with link := .none } else client

/-- No more connections are accepted; a session in hand may still start. -/
def stopAccepting (w : World) (h : HallRef) : World :=
  w.modifyHall h fun hall => { hall with accepting := false }

/-- A shutdown looks which sessions there are. -/
def lookAround (w : World) (h : HallRef) : World :=
  w.modifyHall h fun hall => { hall with dismissing := some hall.sessions.values }

end ChatHall.Server.World
