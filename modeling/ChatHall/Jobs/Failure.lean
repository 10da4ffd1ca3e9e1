/-
# Failed jobs

A job may end in an error or in a panic. Either way the queue goes on with the
next job; what happened is counted and logged.
-/

import ChatHall.Log
import ChatHall.Panic

namespace ChatHall.Jobs

inductive Failure
  | error (message : String)
  | panic (p : Panic)
  deriving Repr, DecidableEq

def Failure.entry (queue : String) (f : Failure) : Log.Entry :=
  let (level, message) :=
    match f with
    | error m => (Log.Level.warn, s!"잡 실패: {m}")
    | panic p => (Log.Level.error, s!"잡 실행 중 패닉: {p.message}")
  { level, target := "servercore::job_queue", message, fields := [("queue", queue)] }

end ChatHall.Jobs
