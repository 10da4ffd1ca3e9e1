/-
# Starting and stopping

How a server comes up from its environment, what it logs meanwhile, and what it
reports if it cannot: the settings are found and checked, the address is read,
the default room is made, and the port is opened.
-/

import ChatHall.Config.ServerSettings
import ChatHall.Log.Filter
import ChatHall.Net.Network
import ChatHall.Server.Service

namespace ChatHall.Server

open ChatHall.Text

inductive StartError
  /-- The program breaks off. -/
  | panicked (p : Panic)
  | settings (e : Config.SettingsError)
  | address (e : Net.Error)
  /-- The port cannot be opened. -/
  | bind (e : Net.Error)
  deriving Repr, DecidableEq

namespace StartError

/-- What is said about a port that cannot be opened. -/
def bindContext : String := "TCP 리스너 바인드 실패"

/-- The error and what is behind it, on one line. -/
def chain : StartError → String
  | panicked p => p.message
  | settings e => e.message
  | address e => e.chain
  | bind e => s!"{bindContext}: {e.chain}"

/-- The error as the program reports it at its end: what is behind it stands below. -/
def report : StartError → String
  | panicked p => p.message
  | settings e => e.message
  | address e => e.message
  | bind e =>
    let causes :=
      match e.source? with
      | some source => s!"    0: {e.message}\n    1: {source.message}"
      | none => s!"    {e.message}"
    s!"{bindContext}\n\nCaused by:\n{causes}"

/-- What the program writes to the error stream at its end. Of a panic it is the text alone,
without the place in the program. -/
def output : StartError → String
  | panicked p => s!"{p.message}\n"
  | e => s!"Error: {e.report}\n"

def exitCode : StartError → UInt8
  | panicked _ => 101
  | _ => 1

end StartError

structure Running where
  service : Service
  address : Net.Address

def openServer (network : Net.Network) (address : Net.Address) (s : Config.ServerSettings) :
    Except StartError Running :=
  match network.listen address s.session with
  | .error e => .error (.bind e)
  | .ok address => .ok { service := Service.start s.session s.defaultRoom, address }

/-- What came of a start, with what was logged. -/
structure Launch where
  result : Except StartError Running
  log : List Log.Entry

def infoEntry (target message : String) : Log.Entry := { level := .info, target, message }

/-- The settings as they are announced. -/
def banner (s : Config.ServerSettings) : List Log.Entry :=
  [s!"=== TCP 채팅 서버 설정 ===",
    s!"TCP 서버: {s.bindAddress}",
    s!"기본 방: {s.defaultRoom}",
    s!"수신 버퍼: {s.recvBufferSize}바이트",
    "=========================="].map (infoEntry "tcpserver")

def openingLog (address : Net.Address) (defaultRoom : String) : List Log.Entry :=
  [infoEntry "tcpserver::server" s!"🚀 채팅 서버 시작 중... ({address.toText})",
    { level := .info
      target := "tcpserver::room::room_manager"
      message := "방 생성"
      fields := [("room", quoted defaultRoom)] },
    { level := .debug
      target := "servercore::job_queue"
      message := "잡 큐 생성"
      fields := [("queue", quoted (roomQueueName defaultRoom))] }]

def openedLog (address : Net.Address) (backlog : Nat) : List Log.Entry :=
  [infoEntry "servercore::listener" s!"🚀 리스너 시작: {address.toText} (backlog {backlog})",
    infoEntry "tcpserver::server" s!"✅ 채팅 서버가 {address.toText}에서 실행 중입니다"]

/-- What is logged when a running server is told to stop, with what its sessions log then. -/
def closingLog (address : Net.Address) (sessions : List Log.Entry) : List Log.Entry :=
  [infoEntry "tcpserver" "종료 시그널 수신, 서버를 중지합니다...",
    infoEntry "tcpserver::server" "🛑 채팅 서버 중지 중...",
    infoEntry "servercore::listener" s!"리스너 종료: {address.toText}"] ++ sessions ++
    [infoEntry "tcpserver::server" "✅ 채팅 서버가 중지되었습니다"]

/-- The address whose port is going to be opened in an environment, if it comes to that. -/
def addressToOpen? (env : Config.Environment) (files : String → Option Bytes) :
    Option Net.Address := do
  let s ← (Config.ServerSettings.find env files).result.toOption
  match s.validate with
  | .error _ => none
  | .ok () => Net.Address.parse? s.bindAddress

def launch (network : Net.Network) (env : Config.Environment) (files : String → Option Bytes) :
    Launch :=
  let found := Config.ServerSettings.find env files
  match found.result with
  | .error p => { result := .error (.panicked p), log := found.log }
  | .ok s =>
    match s.validate with
    | .error e => { result := .error (.settings e), log := found.log }
    | .ok () =>
      let log := found.log ++ banner s
      match Net.parseAddress s.bindAddress with
      | .error e => { result := .error (.address e), log }
      | .ok address =>
        let log := log ++ openingLog address s.defaultRoom
        match openServer network address s with
        | .error e => { result := .error e, log }
        | .ok running =>
          { result := .ok running
            log := log ++ openedLog running.address s.session.listenBacklog }

structure ProgramRun where
  started : Bool
  exitCode : UInt8
  log : List Log.Entry
  /-- What is written to the error stream. -/
  errors : String

/-- The program from its start to its end, which comes when it is told to stop. The log is
filtered by a variable of the environment. -/
def runToEnd (network : Net.Network) (env : Config.Environment) (files : String → Option Bytes) :
    ProgramRun :=
  let launched := launch network env files
  let visible := Log.visible (env.get? "RUST_LOG")
  match launched.result with
  | .error e =>
    { started := false, exitCode := e.exitCode, log := visible launched.log, errors := e.output }
  | .ok running =>
    { started := true, exitCode := 0
      log := visible (launched.log ++ closingLog running.address [])
      errors := "" }

end ChatHall.Server
