/-
# Reconnecting

A connection that fails is tried again after a delay that grows by a factor with
each failure, up to a largest delay, with some jitter on top. The number of
attempts is limited, and the last failure is the answer.
-/

import ChatHall.Log
import ChatHall.Net.Network

namespace ChatHall.Net

/-- A span of time, in nanoseconds. -/
structure Span where
  nanos : Nat
  deriving Repr, DecidableEq

namespace Span

def ofMillis (n : Nat) : Span := ⟨n * 1000000⟩

def millis (s : Span) : Nat := s.nanos / 1000000

/-- A span of whole milliseconds in its largest unit, without trailing zeros. -/
def showMillis (n : Nat) : String :=
  if n = 0 then "0ns"
  else if n < 1000 then s!"{n}ms"
  else
    let fraction := (toString (1000 + n % 1000)).toList.drop 1
    let digits := (fraction.reverse.dropWhile (· = '0')).reverse
    let tail := if digits.isEmpty then "" else "." ++ String.ofList digits
    s!"{n / 1000}{tail}s"

end Span

/-- How often and how long to wait between attempts. -/
structure Policy where
  maxAttempts : Nat := 3
  baseDelay : Span := .ofMillis 100
  maxDelay : Span := .ofMillis 5000
  multiplier : Float := 2.0
  jitter : Span := .ofMillis 50

namespace Policy

/-- The power of a float by repeated squaring, each product rounded:
`result * base ^ n`. -/
def power (result base : Float) (n : Nat) : Float :=
  if n = 0 then result
  else
    let result := if n % 2 = 1 then result * base else result
    if n / 2 = 0 then result else power result (base * base) (n / 2)
termination_by n
decreasing_by omega

/-- The power of a float to a signed exponent. -/
def signedPower (base : Float) (e : Int) : Float :=
  let r := power 1.0 base e.natAbs
  if e < 0 then 1.0 / r else r

/-- The smaller of two floats; one that is not a number loses. -/
def smaller (x y : Float) : Float := if x.isNaN then y else if y < x then y else x

/-- The exponent that an attempt number stands for: 32 bits, read as signed. -/
def exponent (attempt : Nat) : Int := Int.bmod (attempt : Int) UInt32.size

/-- The milliseconds to wait after failure number `attempt`, counted from zero,
when the jitter came out as `drawn`. They are counted in 64 bits, so that a sum beyond
those wraps around. -/
def delay (p : Policy) (drawn : Nat) (attempt : Nat) : Nat :=
  let backoff := Float.ofNat p.baseDelay.millis * signedPower p.multiplier (exponent attempt)
  let capped := smaller backoff (Float.ofNat p.maxDelay.millis)
  let whole := (if capped < 0 then 0 else capped).toUInt64
  let bound := p.jitter.millis % UInt64.size
  let jitter := if bound = 0 then 0 else drawn % bound
  (whole + .ofNat jitter).toNat

end Policy

/-- What happened during a series of attempts. -/
inductive DialEvent
  | failed (reason : IoError)
  | retrying (delay attempt maxAttempts : Nat)
  | gaveUp (attempts : Nat)
  | connected
  deriving Repr, DecidableEq

def DialEvent.entry (address : String) (event : DialEvent) : Log.Entry :=
  let entry (level : Log.Level) (message : String) : Log.Entry :=
    { level, target := "servercore::connector", message }
  match event with
  | failed reason => entry .warn s!"연결 실패: {address} ({reason.message})"
  | retrying delay attempt maxAttempts =>
    entry .info s!"재연결 대기 {Span.showMillis delay} ({attempt}/{maxAttempts}): {address}"
  | gaveUp attempts => entry .warn s!"재연결 포기: {address} ({attempts}회 시도)"
  | connected => entry .info s!"서버 연결 성공: {address}"

/-- One attempt: connected with a session, refused by the network, or connected
with a session that could not be started. -/
inductive Attempt (α : Type)
  | started (session : α)
  | refused (reason : IoError)
  | unstarted (e : Error)

/-- The record of a series of attempts. -/
structure DialRun (α : Type) where
  result : Except Error α
  attempts : Nat
  /-- How many handlers were built: one for each connection. -/
  built : Nat
  /-- The milliseconds waited, in order. -/
  delays : List Nat
  events : List DialEvent

def DialRun.after {α : Type} (built : Nat) (delays : List Nat) (events : List DialEvent)
    (run : DialRun α) : DialRun α :=
  { run with
    attempts := run.attempts + 1
    built := built + run.built
    delays := delays ++ run.delays
    events := events ++ run.events }

/-- Makes up to `left + 1` attempts, the first of which has number `attempt`. -/
def dialFrom {α : Type} (address : String) (policy : Policy) (drawn : Nat → Nat)
    (outcome : Nat → Attempt α) (maxAttempts : Nat) : (left attempt : Nat) → DialRun α
  | left, attempt =>
    let failed (e : Error) (built : Nat) (events : List DialEvent) : DialRun α :=
      match left with
      | 0 => ⟨.error e, 1, built, [], events ++ [.gaveUp (attempt + 1)]⟩
      | left + 1 =>
        let delay := policy.delay (drawn attempt) attempt
        (dialFrom address policy drawn outcome maxAttempts left (attempt + 1)).after built [delay]
          (events ++ [.retrying delay (attempt + 1) maxAttempts])
    match outcome attempt with
    | .started session => ⟨.ok session, 1, 1, [], [.connected]⟩
    | .refused reason => failed (.connect address reason) 0 [.failed reason]
    | .unstarted e => failed e 1 []

/-- Attempts until one succeeds or the policy's limit is reached; a limit of zero
still allows one attempt. -/
def dialWithRetry {α : Type} (address : String) (policy : Policy) (drawn : Nat → Nat)
    (outcome : Nat → Attempt α) : DialRun α :=
  let maxAttempts := max policy.maxAttempts 1
  dialFrom address policy drawn outcome maxAttempts (maxAttempts - 1) 0

end ChatHall.Net
