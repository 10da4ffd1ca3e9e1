/-
# The program

A chat server on the sockets of its host. Readers, the accepting loop, a timer
and the interrupt put what happens into one channel; it is taken out one by one,
and all that follows from it is decided by the service.
-/

import ChatHall.Server.Startup
import Std.Async.Signal
import Std.Async.TCP
import Std.Async.Timer
import Std.Sync.Channel
import Std.Time

namespace ChatHall.Program

open ChatHall.Server
open Std.Async

inductive Happening
  | accepted (socket : TCP.Socket.Client)
  | received (c : ClientRef) (data : Bytes)
  | ended (c : ClientRef)
  | ticked
  | interrupted

instance : Inhabited Happening := ⟨.ticked⟩

abbrev Happenings := Std.Channel Happening

def tell (happenings : Happenings) (h : Happening) : Async Unit := discard (happenings.send h)

/-! ## Loops that tell what happens -/

/-- Tells of all connections. -/
partial def acceptAll (server : TCP.Socket.Server) (happenings : Happenings) : Async Unit := do
  try tell happenings (.accepted (← server.accept))
  catch _ => sleep (.ofNat 10)
  acceptAll server happenings

/-- Tells of all bytes that come over a connection, and of its end. -/
partial def readAll (socket : TCP.Socket.Client) (size : Nat) (c : ClientRef)
    (happenings : Happenings) : Async Unit := do
  let data ← try socket.recv? size.toUInt64 catch _ => pure none
  match data with
  | some data =>
    tell happenings (.received c data.toList)
    readAll socket size c happenings
  | none => tell happenings (.ended c)

/-- Tells that some time has passed, again and again. -/
partial def tickAll (seconds : Nat) (happenings : Happenings) : Async Unit := do
  sleep (Std.Time.Second.Offset.ofNat seconds).toMilliseconds
  tell happenings .ticked
  tickAll seconds happenings

def awaitInterrupt (happenings : Happenings) : Async Unit := do
  let waiter ← Signal.Waiter.mk .sigint false
  discard (await (← waiter.wait))
  tell happenings .interrupted

/-! ## The outside world -/

/-- The failure that the system reported. -/
def failureOf (e : IO.Error) : Net.IoError :=
  let coded (code : UInt32) (detail : String) : Net.IoError :=
    match UInt32.size - code.toNat with
    | 99 => .addressNotAvailable
    | 101 => .networkUnreachable
    | 111 => .connectionRefused
    | n => .other s!"{detail.capitalize} (os error {n})"
  match e with
  | .alreadyExists _ code detail | .invalidArgument _ code detail
  | .permissionDenied _ code detail | .resourceExhausted _ code detail
  | .inappropriateType _ code detail | .noSuchThing _ code detail
  | .otherError code detail | .resourceBusy code detail | .resourceVanished code detail
  | .unsupportedOperation code detail | .illegalOperation code detail => coded code detail
  | e => .other e.toString

def socketAddress (a : Net.Address) : Std.Net.SocketAddress :=
  match a.host with
  | .v4 b c d e => .v4 ⟨⟨#v[b, c, d, e]⟩, a.port⟩
  | .v6 groups _ => .v6 ⟨⟨groups⟩, a.port⟩

def portOf : Std.Net.SocketAddress → UInt16
  | .v4 a => a.port
  | .v6 a => a.port

/-- Opens a port, and tells which one it is. -/
def bindServer (server : TCP.Socket.Server) (backlog : Nat) (a : Net.Address) :
    IO (Except Net.IoError Net.Address) := do
  try
    server.bind (socketAddress a)
    server.listen backlog.toUInt32
    return .ok { a with port := portOf (← server.getSockName) }
  catch e => return .error (failureOf e)

def fileContents (path : String) : IO (Option Bytes) := do
  try return some (← IO.FS.readBinFile path).toList
  catch _ => return none

def environment : IO Config.Environment := do
  return .ofBlock ((← fileContents "/proc/self/environ").getD [])

def now : IO Int64 := do
  return .ofInt (← Std.Time.Timestamp.now).toMillisecondsSinceUnixEpoch.val

def printLog (filter : Option String) (entries : List Log.Entry) : IO Unit := do
  let output ← IO.getStdout
  for e in Log.visible filter entries do output.putStrLn e.line
  output.flush

/-! ## The loop -/

abbrev Sockets := Table ClientRef TCP.Socket.Client

def release (sockets : Sockets) (output : Service.Output) : IO Sockets := do
  for (c, data) in output.writes do
    if let some socket := sockets.find? c then
      discard (socket.send ⟨data.toArray⟩).toIO
  for c in output.closed do
    if let some socket := sockets.find? c then
      discard socket.shutdown.toIO
  return output.closed.foldl Table.erase sockets

/-- Takes out what happens until the interrupt. -/
partial def serve (happenings : Happenings) (filter : Option String) (address : Net.Address)
    (sockets : Sockets) (service : Service) : IO Unit := do
  let happening ← happenings.sync.recv
  let service := service.atTime (← now)
  match happening with
  | .interrupted =>
    let (_, output) := service.shutdown.takeOutput
    discard (release sockets output)
    printLog filter (closingLog address output.log)
  | .ticked =>
    printLog filter service.statistics
    serve happenings filter address sockets service
  | .accepted socket =>
    match service.accept? with
    | none => serve happenings filter address sockets service
    | some (service, c) =>
      discard (readAll socket service.settings.recvBufferSize c happenings).toIO
      settle (sockets.insert c socket) service
  | .received c data => settle sockets (service.receive c data)
  | .ended c => settle sockets (service.finishReceiving c)
where
  /-- Goes on once what has come up is outside. -/
  settle (sockets : Sockets) (service : Service) : IO Unit := do
    let (service, output) := service.takeOutput
    printLog filter output.log
    serve happenings filter address (← release sockets output) service

/-- The program from its start to the interrupt, or to the reason why it cannot start. -/
def run : IO UInt32 := do
  let env ← environment
  let mut found : Table String Bytes := {}
  for path in Config.ServerSettings.filePaths do
    if let some contents ← fileContents path then found := found.insert path contents
  let files := found.find?
  let filter := env.get? "RUST_LOG"
  let settings := (Config.ServerSettings.find env files).result.toOption.getD {}
  let server ← TCP.Socket.Server.mk
  let opened ←
    match addressToOpen? env files with
    | some a => bindServer server settings.session.listenBacklog a
    | none => pure (.error .networkUnreachable)
  let launched := launch { dial := fun _ => .ok (), bind := fun _ => opened } env files
  printLog filter launched.log
  match launched.result with
  | .error e =>
    IO.eprint e.output
    return e.exitCode.toUInt32
  | .ok running =>
    let happenings ← Std.Channel.new
    discard (acceptAll server happenings).toIO
    discard (tickAll settings.statsIntervalSecs happenings).toIO
    discard (awaitInterrupt happenings).toIO
    serve happenings filter running.address {} running.service
    return 0

end ChatHall.Program

def main : IO UInt32 := ChatHall.Program.run
