/-
# Server settings

The settings of a chat server, their defaults, and how they are found: in the
environment first, then in the environment files, then the default.
-/

import ChatHall.Config.EnvFile
import ChatHall.Decimal.Natural
import ChatHall.Log
import ChatHall.Net.Settings
import ChatHall.Text.Quoted

namespace ChatHall.Config

open ChatHall.Text

structure ServerSettings where
  host : String := "127.0.0.1"
  port : UInt16 := 4000
  recvBufferSize : Nat := 8192
  sendChunkSize : Nat := 8192
  maxPacketId : UInt16 := 1000
  statsIntervalSecs : Nat := 30
  defaultRoom : String := "lobby"
  deriving Repr, DecidableEq

inductive SettingsError
  | emptyHost
  | zeroStatsInterval
  | blankDefaultRoom
  | session (e : Net.Error)
  deriving Repr, DecidableEq

def SettingsError.message : SettingsError → String
  | emptyHost => "TCP 호스트 주소가 비어있습니다"
  | zeroStatsInterval => "stats_interval_secs는 0일 수 없습니다"
  | blankDefaultRoom => "기본 방 이름이 비어있습니다"
  | session e => e.message

namespace ServerSettings

def bindAddress (s : ServerSettings) : String := s!"{s.host}:{s.port}"

def session (s : ServerSettings) : Net.Settings where
  recvBufferSize := s.recvBufferSize
  sendChunkSize := s.sendChunkSize
  maxPacketId := s.maxPacketId

/-- Refuses settings that no server could run with; the first bad one is named. -/
def validate (s : ServerSettings) : Except SettingsError Unit :=
  if s.host.isEmpty then .error .emptyHost
  else if s.statsIntervalSecs = 0 then .error .zeroStatsInterval
  else if allBlank s.defaultRoom then .error .blankDefaultRoom
  else s.session.validate.mapError .session

def shown (s : ServerSettings) : String :=
  s!"TcpServerConfig \x7b host: {quoted s.host}, port: {s.port}, " ++
    s!"recv_buffer_size: {s.recvBufferSize}, send_chunk_size: {s.sendChunkSize}, " ++
    s!"max_packet_id: {s.maxPacketId}, stats_interval_secs: {s.statsIntervalSecs}, " ++
    s!"default_room: {quoted s.defaultRoom} \x7d"

def logTarget : String := "tcpserver::config"

/-- The environment files in the order in which they are tried. -/
def filePaths : List String := ["../.env", ".env", "../../.env"]

/-- Loads the first of the files that has no bad line. A file that has one still
leaves the variables it has set. -/
def loadFiles (env : Environment) (files : String → Option Bytes) :
    List String → Environment × Except Panic Log.Entry
  | [] =>
    (env, .ok
      ⟨.warn, logTarget, ".env 파일을 찾을 수 없습니다. 기본값과 시스템 환경변수를 사용합니다.", []⟩)
  | path :: later =>
    match files path with
    | none => loadFiles env files later
    | some contents =>
      match EnvFile.load env contents with
      | (env, .whole) => (env, .ok ⟨.info, logTarget, s!".env 파일 로드 성공: {path}", []⟩)
      | (env, .badLine) => loadFiles env files later
      | (env, .panicked p) => (env, .error p)

/-- A numeric setting and what is logged about it: the variable's value, or the
default if there is none or it is no number within the limit. -/
def number (env : Environment) (name : String) (limit fallback : Nat) : Nat × List Log.Entry :=
  match env.get? name with
  | none => (fallback, [])
  | some text =>
    match Decimal.natural? limit text with
    | some n => (n, [])
    | none => (fallback, [⟨.warn, logTarget, s!"환경변수 {name}='{text}' 파싱 실패, 기본값 사용", []⟩])

/-- The largest number of two bytes, and that of eight. -/
def limit16 : Nat := UInt16.size - 1

@[inherit_doc limit16]
def limit64 : Nat := UInt64.size - 1

/-- The settings that an environment holds, with what is logged about them. -/
def ofVariables (env : Environment) : ServerSettings × List Log.Entry :=
  let defaults : ServerSettings := {}
  let (port, log₁) := number env "tcp_port" limit16 defaults.port.toNat
  let (recv, log₂) := number env "recv_buffer_size" limit64 defaults.recvBufferSize
  let (chunk, log₃) := number env "send_chunk_size" limit64 defaults.sendChunkSize
  let (maxId, log₄) := number env "max_packet_id" limit16 defaults.maxPacketId.toNat
  let (secs, log₅) := number env "stats_interval_secs" limit64 defaults.statsIntervalSecs
  let settings : ServerSettings :=
    { host := (env.get? "tcp_host").getD defaults.host
      port := UInt16.ofNat port
      recvBufferSize := recv
      sendChunkSize := chunk
      maxPacketId := UInt16.ofNat maxId
      statsIntervalSecs := secs
      defaultRoom := (env.get? "default_room").getD defaults.defaultRoom }
  (settings, log₁ ++ log₂ ++ log₃ ++ log₄ ++ log₅)

/-- What came of looking for the settings: the environment as it is then, and the settings,
unless a value in a file could not be set. -/
structure Found where
  environment : Environment
  result : Except Panic ServerSettings
  log : List Log.Entry

/-- The settings of a process with this environment among these files. -/
def find (env : Environment) (files : String → Option Bytes) : Found :=
  match loadFiles env files filePaths with
  | (env, .error p) => { environment := env, result := .error p, log := [] }
  | (env, .ok loaded) =>
    let (settings, warnings) := ofVariables env
    { environment := env
      result := .ok settings
      log := loaded :: warnings ++
        [⟨.info, logTarget, s!"TCP 서버 설정 로드 완료: {settings.shown}", []⟩] }

end ServerSettings

end ChatHall.Config
